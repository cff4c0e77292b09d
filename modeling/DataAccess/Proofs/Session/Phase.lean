import DataAccess.Proofs.Activity
import Mathlib.Computability.Language

/-!
What a session may tell of its connection and of the transactions in it, beside the statements
that it sends: a row of phases, each of which begins as it is told.
-/
namespace DataAccess

open scoped Computability

inductive Stage where
  | connected
  | started
  | ended
  | disconnected
  deriving DecidableEq

namespace Stage

def transactions : Language Stage := ({[started]} * {[ended]})∗

/-- Connections one after the other, each with the transactions in it. -/
def connections : Language Stage := ({[connected]} * transactions * {[disconnected]})∗

end Stage

def Event.stage? : Event → Option Stage
  | connected => some .connected
  | startedTransaction => some .started
  | endedTransaction .. => some .ended
  | disconnected => some .disconnected
  | preQuery .. | query .. => none

namespace Session

def lifecycle (s : Session) : List Event := s.events.filter fun e => !e.isAnnouncement

def stages (s : Session) : List Stage := s.events.filterMap Event.stage?

theorem stages_eq (s : Session) : s.stages = s.lifecycle.filterMap Event.stage? := by
  rw [lifecycle, List.filterMap_filter, stages]
  congr 1
  funext e
  cases e <;> rfl

end Session

def Call.statement? (n : Nat) : Call → Option Statement
  | .query session _ sql params accepted =>
    if session = n then some ⟨sql, params, accepted⟩ else none
  | _ => none

def Wire.statements {σ : Type} (w : Wire σ) (n : Nat) : List Statement :=
  w.calls.filterMap (Call.statement? n)

/-- What a session does that others see: it tells something, or sends a statement. -/
inductive Happening where
  | told (e : Event)
  | sent (statement : Statement)

namespace Happening

def told? : Happening → Option Event
  | told e => some e
  | sent _ => none

def sent? : Happening → Option Statement
  | told _ => none
  | sent statement => some statement

@[simp] theorem told?_told (e : Event) : (told e).told? = some e := rfl

@[simp] theorem told?_sent (s : Statement) : (sent s).told? = none := rfl

@[simp] theorem sent?_told (e : Event) : (told e).sent? = none := rfl

@[simp] theorem sent?_sent (s : Statement) : (sent s).sent? = some s := rfl

end Happening

/-- Where a session is between two happenings. -/
inductive Phase where
  | apart
  | connected
  | running
  deriving DecidableEq

namespace Phase

/-- The phase of a session that uses its connection like this. -/
def Fits : Phase → Connection → Prop
  | apart, c => c.count = 0 ∧ c.depth = 0
  | connected, c => 0 < c.count ∧ c.depth = 0 ∧ c.client.isSome
  | running, c => 0 < c.count ∧ 0 < c.depth ∧ c.client.isSome

theorem Fits.ne_apart_iff {p : Phase} {c : Connection} (h : p.Fits c) :
    p ≠ apart ↔ 0 < c.count := by
  cases p <;> simp only [Fits] at h <;> simp [h]

theorem Fits.running_iff {p : Phase} {c : Connection} (h : p.Fits c) :
    p = running ↔ 0 < c.depth := by
  cases p <;> simp only [Fits] at h <;> simp [h]

/-- The phase depends on whether there are users and transactions, and not on how many. -/
theorem Fits.shared {p : Phase} {c d : Connection} (h : p.Fits c) (hc : d.client = c.client)
    (hn : 0 < d.count ↔ 0 < c.count) (hd : 0 < d.depth ↔ 0 < c.depth) : p.Fits d := by
  cases p <;> simp only [Fits, hc] at h ⊢ <;> simp_all [Nat.pos_iff_ne_zero]

/-- From one phase to another by what a session tells and sends. A transaction ends with the
statement that ends it, and what is told of it is what the link has answered to that. -/
inductive Passes (commits : Prop) (p : Phase) : List Happening → Phase → Prop
  | nil : Passes commits p [] p
  | connected {log : List Happening} :
    Passes commits p log apart → Passes commits p (log ++ [.told .connected]) connected
  | sent {log : List Happening} {q : Phase} {s : Statement} :
    Passes commits p log q → CallersCommit commits s.sql → Passes commits p (log ++ [.sent s]) q
  | started {log : List Happening} :
    Passes commits p log connected → Passes commits p (log ++ [.told .startedTransaction]) running
  | ended {log : List Happening} {last : Statement} (error : Option String) :
    Passes commits p log running → last.sql = "COMMIT" ∨ last.sql = "ROLLBACK" →
      Passes commits p (log ++ [.sent last, .told (.endedTransaction error
        (last.sql == "COMMIT" && last.accepted))]) connected
  | disconnected {log : List Happening} :
    Passes commits p log connected → Passes commits p (log ++ [.told .disconnected]) apart

variable {commits : Prop} {p q r : Phase} {log later : List Happening}

theorem Passes.trans (h : Passes commits p log q) (k : Passes commits q later r) :
    Passes commits p (log ++ later) r := by
  induction k with
  | nil => rwa [List.append_nil]
  | connected _ ih => exact List.append_assoc .. ▸ ih.connected
  | sent _ hs ih => exact List.append_assoc .. ▸ ih.sent hs
  | started _ ih => exact List.append_assoc .. ▸ ih.started
  | ended error _ hl ih => exact List.append_assoc .. ▸ ih.ended error hl
  | disconnected _ ih => exact List.append_assoc .. ▸ ih.disconnected

def word : Phase → Language Stage
  | apart => Stage.connections
  | connected => Stage.connections * {[.connected]} * Stage.transactions
  | running => Stage.connections * {[.connected]} * Stage.transactions * {[.started]}

def closing : Phase → List Stage
  | apart => []
  | connected => [.disconnected]
  | running => [.ended, .disconnected]

/-- One more word after others. -/
theorem append_mem_kstar {l : Language Stage} {words word : List Stage} (hs : words ∈ l∗)
    (h : word ∈ l) : words ++ word ∈ l∗ := by
  obtain ⟨parts, rfl, hl⟩ := Language.mem_kstar.mp hs
  refine Language.mem_kstar.mpr ⟨parts ++ [word], by simp, fun w hw => ?_⟩
  rcases List.mem_append.mp hw with hw | hw
  · exact hl w hw
  · exact List.mem_singleton.mp hw ▸ h

theorem mem_word_ended {stages : List Stage} (h : stages ∈ word running) :
    stages ++ [.ended] ∈ word connected := by
  obtain ⟨opened, ho, started, rfl, rfl⟩ := Language.mem_mul.mp h
  obtain ⟨before, hb, transactions, ht, rfl⟩ := Language.mem_mul.mp ho
  rw [List.append_assoc, List.append_assoc]
  exact Language.append_mem_mul hb (append_mem_kstar ht (Language.append_mem_mul rfl rfl))

theorem mem_word_disconnected {stages : List Stage} (h : stages ∈ word connected) :
    stages ++ [.disconnected] ∈ word apart := by
  obtain ⟨opened, ho, transactions, ht, rfl⟩ := Language.mem_mul.mp h
  obtain ⟨connections, hc, connected, rfl, rfl⟩ := Language.mem_mul.mp ho
  rw [List.append_assoc, List.append_assoc]
  exact append_mem_kstar hc (List.append_assoc .. ▸
    Language.append_mem_mul (Language.append_mem_mul rfl ht) rfl)

/-- However far a session is, what it has told of so far goes on to whole connections. -/
theorem append_closing_mem {stages : List Stage} (h : stages ∈ p.word) :
    stages ++ p.closing ∈ Stage.connections := by
  cases p with
  | apart => exact (List.append_nil stages).symm ▸ h
  | connected => exact mem_word_disconnected h
  | running =>
    rw [closing, ← List.singleton_append, ← List.append_assoc]
    exact mem_word_disconnected (mem_word_ended h)

end Phase

namespace Happening

def stages (log : List Happening) : List Stage :=
  (log.filterMap told?).filterMap Event.stage?

@[simp] theorem stages_append (log later : List Happening) :
    stages (log ++ later) = stages log ++ stages later := by
  simp only [stages, List.filterMap_append]

@[simp] theorem stages_nil : stages [] = [] := rfl

@[simp] theorem stages_sent (s : Statement) (log : List Happening) :
    stages (.sent s :: log) = stages log := rfl

@[simp] theorem stages_told (e : Event) : stages [.told e] = e.stage?.toList := by
  cases e <;> rfl

end Happening

namespace Phase
variable {commits : Prop} {p q : Phase} {log : List Happening}

theorem Passes.word (h : Passes commits apart log p) : Happening.stages log ∈ p.word := by
  induction h with
  | nil => exact Language.nil_mem_kstar _
  | connected _ ih =>
    rw [Happening.stages_append, ← List.append_nil (_ ++ _)]
    exact Language.append_mem_mul (Language.append_mem_mul ih rfl) (Language.nil_mem_kstar _)
  | sent _ _ ih =>
    rw [Happening.stages_append, Happening.stages_sent, Happening.stages_nil, List.append_nil]
    exact ih
  | started _ ih =>
    rw [Happening.stages_append]
    exact Language.append_mem_mul ih rfl
  | ended error _ _ ih =>
    rw [Happening.stages_append]
    exact mem_word_ended ih
  | disconnected _ ih =>
    rw [Happening.stages_append]
    exact mem_word_disconnected ih

/-- A connection is open, or a transaction, if it is told of one more than of the end of one. -/
theorem Passes.count (h : Passes commits apart log p) :
    (Happening.stages log).count .connected =
        (Happening.stages log).count .disconnected + (if p ≠ apart then 1 else 0) ∧
      (Happening.stages log).count .started =
        (Happening.stages log).count .ended + (if p = running then 1 else 0) := by
  induction h <;> simp_all [Event.stage?]

/-- At the end of `log` a transaction has ended: it was started, and of the statements sent since
then the last one ends it. Changes are said to be kept if that one is an accepted COMMIT. -/
def Concluded (commits : Prop) (log : List Happening) (committed : Bool) : Prop :=
  ∃ (earlier : List Happening) (sent : List Statement) (last : Statement),
    log = earlier ++ .told .startedTransaction :: (sent ++ [last]).map .sent ∧
      (last.sql = "COMMIT" ∨ last.sql = "ROLLBACK") ∧
      (committed = true ↔ last.sql = "COMMIT" ∧ last.accepted = true) ∧
      ∀ s ∈ sent, CallersCommit commits s.sql

theorem Passes.running (h : Passes commits apart log running) :
    ∃ (earlier : List Happening) (sent : List Statement),
      log = earlier ++ .told .startedTransaction :: sent.map .sent ∧
        ∀ s ∈ sent, CallersCommit commits s.sql := by
  generalize hp : Phase.running = p at h
  induction h with
  | nil | connected | ended | disconnected => contradiction
  | @sent _ _ s _ hs ih =>
    obtain ⟨earlier, sent, rfl, hc⟩ := ih hp
    refine ⟨earlier, sent ++ [s], by simp, fun s hm => ?_⟩
    rcases List.mem_append.mp hm with hm | hm
    · exact hc s hm
    · exact List.mem_singleton.mp hm ▸ hs
  | started _ _ => exact ⟨_, [], rfl, by simp⟩

/-- What stands in a longer log is what was added, or stood there before. -/
theorem of_concat_eq {log before after : List Happening} {x y : Happening}
    (h : log ++ [x] = before ++ y :: after) :
    (x = y ∧ log = before) ∨ ∃ rest, log = before ++ y :: rest := by
  rcases List.eq_nil_or_concat after with rfl | ⟨rest, z, rfl⟩
  · obtain ⟨hl, hx⟩ := List.append_inj' h rfl
    exact .inl ⟨List.singleton_inj.mp hx, hl⟩
  · rw [List.concat_eq_append, ← List.cons_append, ← List.append_assoc] at h
    exact .inr ⟨rest, (List.append_inj' h rfl).1⟩

/-- What is told of the end of a transaction is the answer to the statement that ends it. -/
theorem Passes.concluded (h : Passes commits apart log p) {before after : List Happening}
    {error : Option String} {committed : Bool}
    (hl : log = before ++ .told (.endedTransaction error committed) :: after) :
    Concluded commits before committed := by
  induction h generalizing after with
  | nil => simp at hl
  | connected _ ih | sent _ _ ih | started _ ih | disconnected _ ih =>
    rcases of_concat_eq hl with ⟨hx, -⟩ | ⟨rest, hr⟩
    · simp at hx
    · exact ih hr
  | @ended log last error hrunning hlast ih =>
    rw [← List.singleton_append, ← List.append_assoc] at hl
    rcases of_concat_eq hl with ⟨hx, hb⟩ | ⟨rest, hr⟩
    · simp only [Happening.told.injEq, Event.endedTransaction.injEq] at hx
      obtain ⟨earlier, sent, rfl, hc⟩ := hrunning.running
      refine ⟨earlier, sent, last, by simp [← hb], hlast, ?_, hc⟩
      rw [← hx.2, Bool.and_eq_true, beq_iff_eq]
    · rcases of_concat_eq hr with ⟨hx, -⟩ | ⟨rest, hr⟩
      · simp at hx
      · exact ih hr

end Phase
end DataAccess
