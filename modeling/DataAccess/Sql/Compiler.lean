import DataAccess.Error

/-! Compilation of a query. The parameters grow while the text is written. -/
namespace DataAccess

/-- SQL text and the values of its placeholders: `$1` is the first. -/
structure Compiled where
  sql : String
  params : List Json
  deriving DecidableEq

/-- A step of a compilation, with the parameters up to now. -/
abbrev Compiler := StateT (List Json) (Except Error)

/-- Binds a value. Its placeholder has the number of parameters that there are with it. -/
def Compiler.push (v : Json) : Compiler String := do
  modify (· ++ [v])
  return "$" ++ toString (← get).length

end DataAccess
