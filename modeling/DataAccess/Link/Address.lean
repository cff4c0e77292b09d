import DataAccess.Url.Reader

/-! Where a server is: a URL that can be connected to. -/
namespace DataAccess

/-- A server to connect to; nothing is dialed before the first statement. -/
structure Address where
  url : String
  maxConnections : Nat
  deriving DecidableEq, Repr

namespace Address
open Url

/-- Connections of a server if their number is not given. -/
def defaultConnections : Nat := 5

/-- How far a connection is to be encrypted, and the server to be known. -/
def sslModes : List String :=
  ["disable", "allow", "prefer", "require", "verify-ca", "verify-full"]

/-- Whether a parameter of the query has a value of its kind. Parameters whose value is free, and
those that are not known, take any. -/
def takes (name : String) (value : Option (List Char)) : Bool :=
  match name with
  | "sslmode" | "ssl-mode" =>
    value.any fun v => sslModes.contains (String.ofList (v.map Char.toLower))
  | "statement-cache-capacity" => value.any fun v => (Digits.unsigned? (pow2 64) v).isSome
  | "port" => value.any fun v => (Digits.unsigned? 65536 v).isSome
  | "hostaddr" => value.any isIpAddress
  | _ => true

def takesField (f : List Char × List Char) : Bool :=
  match decodedField? f.1 with
  | some name => takes (String.ofList name) (decodedField? f.2)
  | none => true

/-- A host that begins with an encoded slash is the path of a socket. -/
def hasHost (u : Url) : Bool :=
  (bytes u.host).head? ≠ some 47 || (decoded? u.host).isSome

/-- All texts of the URL can be read, and its parameters make sense. -/
def suits (u : Url) : Bool :=
  hasHost u && (decoded? u.user).isSome && (decoded? u.password).isSome &&
    u.path.all (fun s => (decoded? s).isSome) && u.fields.all takesField

/-- The server that a text names; a size of zero means the default. -/
def parse? (url : String) (maxConnections : Nat) : Option Address :=
  if (Url.parse? url).any suits then
    some ⟨url, if maxConnections = 0 then defaultConnections else maxConnections⟩
  else none

end Address
end DataAccess
