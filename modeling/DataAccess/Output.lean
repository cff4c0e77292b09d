import DataAccess.Page

/-! The shapes a result can take. -/
namespace DataAccess

/-- Which part of the rows is wanted. -/
inductive First where
  | all
  | row
  | field (name : String)
  deriving DecidableEq, Repr

inductive Output where
  | rows (rows : List Record)
  | row (row : Option Record)
  | value (value : Option Json)
  | page (page : Page Record)

namespace Output

def intoRows : Output → List Record
  | .rows rs => rs
  | .row r => r.toList
  | .value v => (v.bind Json.fields?).toList
  | .page p => p.items

def intoRow (o : Output) : Option Record := o.intoRows.head?

def intoValue : Output → Option Json
  | .value v => v
  | .row r => r.map .object
  | .rows rs => rs.head?.map .object
  | .page p => some (p.toJson .object)

def intoPage : Output → Page Record
  | .page p => p
  | o => ⟨o.intoRows.length, o.intoRows⟩

def toJson : Output → Json
  | .rows rs => .array (rs.map .object)
  | .row r => .ofOption .object r
  | .value v => v.getD .null
  | .page p => p.toJson .object

/-- The wanted part of the rows. -/
def shape (first : First) (rs : List Record) : Output :=
  match first with
  | .all => .rows rs
  | .row => .row rs.head?
  | .field name => .value (rs.head?.bind fun r => Assoc.get? r name)

end Output
end DataAccess
