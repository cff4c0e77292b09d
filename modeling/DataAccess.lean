import DataAccess.Main
import DataAccess.Cache.Access
import DataAccess.Link.Scripted
import DataAccess.Queue
import DataAccess.Proofs.Filter.Meaning
import DataAccess.Proofs.Session.Crowd
import DataAccess.Proofs.Session.Plan
import DataAccess.Proofs.Session.Frame
import DataAccess.Proofs.Session.Balance
import DataAccess.Proofs.Session.Bracketing
import DataAccess.Proofs.Session.Ending
import DataAccess.Proofs.Session.Structured
import DataAccess.Proofs.Session.Control
import DataAccess.Proofs.Sql.Placeholders
import DataAccess.Proofs.Text.Cut
import DataAccess.Proofs.Text.Words
import DataAccess.Proofs.Text.Parting
import DataAccess.Proofs.Text.Casing
import DataAccess.Proofs.Sql.Names
import DataAccess.Proofs.Sql.Piece
import DataAccess.Proofs.Sql.Layout
import DataAccess.Proofs.Sql.Writing
import DataAccess.Proofs.Sql.Numbering
import DataAccess.Proofs.Sql.Precedence
import DataAccess.Proofs.Sql.Shape
import DataAccess.Proofs.Text.Ascii
import DataAccess.Proofs.Text.Capitals
import DataAccess.Proofs.Session.Asked
import DataAccess.Proofs.Session.Execution
import DataAccess.Proofs.Session.Serving
import DataAccess.Proofs.Sql.Refusal
import DataAccess.Proofs.Query.Running
import DataAccess.Proofs.Query.Reading
import DataAccess.Proofs.Query.Totals
import DataAccess.Proofs.Query.Editing
import DataAccess.Proofs.Query.Preview
import DataAccess.Proofs.Session.Beat
import DataAccess.Proofs.Session.Lifecycle
import DataAccess.Proofs.Session.History
import DataAccess.Proofs.Session.Announcements
import DataAccess.Proofs.Cache.Storing
import DataAccess.Proofs.Session.Guard
import DataAccess.Proofs.Schema.Lookup
import DataAccess.Proofs.Schema.Catalogue
import DataAccess.Proofs.Schema.Course
import DataAccess.Proofs.Session.Gates
import DataAccess.Proofs.Errand
import DataAccess.Proofs.Progress
import DataAccess.Proofs.Cache.Upkeep
import DataAccess.Proofs.Session.Serial
import DataAccess.Proofs.Cache.Sharing
import DataAccess.Proofs.Sql.Snapshot
import DataAccess.Proofs.Filter.Comparisons
import DataAccess.Proofs.Sql.ArrayReading
import DataAccess.Proofs.Sql.Assignments
import DataAccess.Proofs.Session.Dialing
import DataAccess.Proofs.Query.FirstField
import DataAccess.Proofs.Sql.PathReading
import DataAccess.Proofs.Sql.Unquoted
import DataAccess.Proofs.Session.Closing
import DataAccess.Proofs.Cache.Editing
import DataAccess.Proofs.Query.Mistakes
import DataAccess.Proofs.Text.Spelling
import DataAccess.Proofs.Config.Expansion
import DataAccess.Proofs.Query.Aggregates
import DataAccess.Proofs.Page
