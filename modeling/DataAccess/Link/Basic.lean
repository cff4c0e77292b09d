import DataAccess.Duration
import DataAccess.Error
import DataAccess.Link.Address

/-!
What a session needs from a source of connections, and the record of what was asked of it. The
answers of a link may depend on all that it was asked before.
-/
namespace DataAccess

/-- `σ` is the state of a source of connections. Without an address it is the link's own server
that is meant, and an open connection is named by its number. -/
class Link (σ : Type) where
  connect : σ → Option Address → Except Error Unit × σ
  query : σ → Nat → String → List Json → Except Error (List Record) × σ
  release : σ → Nat → σ
  finish : σ → Option Address → Except Error Unit × σ

/-- One thing that was asked of a link, or one wait. -/
inductive Call where
  | connect (session : Nat) (accepted : Bool)
  | query (session client : Nat) (sql : String) (params : List Json) (accepted : Bool)
  | release (session client : Nat)
  | finish (address : Option Address)
  | pause (delay : Duration)
  deriving DecidableEq

def Call.opens : Call → Bool
  | .connect _ accepted => accepted
  | _ => false

def Call.millis : Call → Nat
  | .pause delay => delay.ceilMillis
  | _ => 0

/-- A link with the calls so far, oldest first. -/
structure Wire (σ : Type) where
  link : σ
  calls : List Call := []

namespace Wire
variable {σ : Type}

/-- Connections that were opened, whether or not they are still open. -/
def opened (w : Wire σ) : Nat := w.calls.countP Call.opens

/-- Milliseconds spent waiting. -/
def waited (w : Wire σ) : Nat := (w.calls.map Call.millis).foldl (· + ·) 0

def pause (w : Wire σ) (delay : Duration) : Wire σ :=
  { w with calls := w.calls ++ [.pause delay] }

end Wire
end DataAccess
