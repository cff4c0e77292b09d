import DataAccess.Json.Shape

/-! What can go wrong, by cause, and the text of each cause. -/
namespace DataAccess

/-- Why a filter is refused. -/
inductive FilterFault where
  | notCollection (got : Json)
  | notColumns (keyword : String)
  | noColumns (keyword : String)
  | noComparers (column : String)
  | bareObject (column : String)
  | notGroup (keyword : String) (got : Json)
  | strayField (field column : String)
  | emptyColumn
  | notColumn (column : String) (got : Json)
  | described (text : String)
  deriving DecidableEq

/-- Why a join is refused. -/
inductive JoinFault where
  | emptyTable
  | noConditions (table : String)
  | malformed (fault : Json.ShapeFault)
  | described (text : String)
  deriving DecidableEq

/-- Why values to store are refused. -/
inductive ValuesFault where
  | emptyTable
  | notColumns (got : Json)
  | noAssignment
  | noTarget
  | noReplacement (got : Json)
  | noMergedColumn
  | described (text : String)
  deriving DecidableEq

/-- Why an argument of a record cache is refused. -/
inductive CacheFault where
  | identifiers (got : Json)
  | delta (got : Json)
  | record (got : Json)
  | records (got : Json)
  | described (text : String)
  deriving DecidableEq

/-- Why settings are refused. -/
inductive SettingsFault where
  | invalid
  | noDatabase
  | described (text : String)
  deriving DecidableEq

mutual

inductive Error where
  | invalidCondition (fault : FilterFault)
  | unknownModifier (modifier : String)
  | nullComparison (comparer : String)
  | invalidJoin (fault : JoinFault)
  | invalidValues (fault : ValuesFault)
  | invalidCacheValue (fault : CacheFault)
  | notConnected (session : Nat)
  | notRetained (session : Nat)
  | noTransaction (session : Nat)
  | connect (attempts : Nat) (source : Cause)
  | link (source : String)
  | decode (column typeName : String)
  | config (fault : SettingsFault)
  | poolNotInitialized
  | json (source : String)
  deriving DecidableEq

/-- The failure under another one. Of a failure from elsewhere only the text is known. -/
inductive Cause where
  | error (e : Error)
  | described (text : String)
  deriving DecidableEq

end

def FilterFault.text : FilterFault → String
  | notCollection got => "expected an object or a list, got " ++ got.text
  | notColumns keyword => keyword ++ " expects an object of columns"
  | noColumns keyword => keyword ++ " has no columns"
  | noComparers column => "no comparers for column " ++ column
  | bareObject column =>
    "column " ++ column ++ " needs a comparer for an object value (try $contains)"
  | notGroup keyword got => keyword ++ " expects an object or a list, got " ++ got.text
  | strayField field column =>
    "cannot mix comparers and field " ++ field ++ " under column " ++ column
  | emptyColumn => "empty column name"
  | notColumn column got =>
    "join condition on " ++ column ++ " must name a column, got " ++ got.text
  | described text => text

def JoinFault.text : JoinFault → String
  | emptyTable => "join table is empty"
  | noConditions table => "no conditions for " ++ table
  | malformed fault => fault.text
  | described text => text

def ValuesFault.text : ValuesFault → String
  | emptyTable => "table name is empty"
  | notColumns got => "expected an object of columns, got " ++ got.text
  | noAssignment => "update needs at least one column"
  | noTarget => "DO UPDATE needs conflict columns"
  | noReplacement got => "upsert values must be a non-empty object, got " ++ got.text
  | noMergedColumn => "merge needs at least one column"
  | described text => text

def CacheFault.text : CacheFault → String
  | identifiers got => "identifiers must be an object, got " ++ got.text
  | delta got => "patch expects an object, got " ++ got.text
  | record got => "expected an object, got " ++ got.text
  | records got => "expected an object or a list, got " ++ got.text
  | described text => text

def SettingsFault.text : SettingsFault → String
  | invalid => "invalid TOML"
  | noDatabase => "no pool.database_url and DATABASE_URL is not set"
  | described text => text

mutual

def Error.message : Error → String
  | .invalidCondition fault => "Invalid condition: " ++ fault.text
  | .unknownModifier modifier => "Unknown modifier " ++ modifier
  | .nullComparison comparer => "Modifier " ++ comparer ++ " is not usable with null values"
  | .invalidJoin fault => "Invalid join: " ++ fault.text
  | .invalidValues fault => "Invalid values: " ++ fault.text
  | .invalidCacheValue fault => "Invalid cache value: " ++ fault.text
  | .notConnected session => "No connection is retained by session " ++ toString session
  | .notRetained session =>
    "Session " ++ toString session ++ " released a connection it does not hold"
  | .noTransaction session => "Session " ++ toString session ++ " has no open transaction"
  | .connect attempts source =>
    "Failed to connect after " ++ toString attempts ++ " attempt(s): " ++ source.text
  | .link source => "Database error: " ++ source
  | .decode column typeName => "Cannot decode column '" ++ column ++ "' of type " ++ typeName
  | .config fault => "Configuration error: " ++ fault.text
  | .poolNotInitialized => "Database pool is not initialized (call pool::init first)"
  | .json source => "JSON error: " ++ source

def Cause.text : Cause → String
  | .error e => e.message
  | .described text => text

end

namespace Error

/-- Mistakes of the caller, which no retry mends. -/
def isValidation : Error → Bool
  | invalidCondition _ | unknownModifier _ | nullComparison _ | invalidJoin _ | invalidValues _
  | invalidCacheValue _ => true
  | _ => false

/-- The failure underneath, for errors that wrap one. -/
def source : Error → Option Cause
  | connect _ source => some source
  | link source => some (.described source)
  | _ => none

end Error
end DataAccess
