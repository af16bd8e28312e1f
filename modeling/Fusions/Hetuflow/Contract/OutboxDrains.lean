import Mathlib.Algebra.Order.BigOperators.Group.List
import Mathlib.Algebra.GroupWithZero.Nat
import Mathlib.Algebra.Order.Group.Nat
import Fusions.Hetuflow.Contract.Leases

/-! No record of the outbox is stuck: from any state one worker can work all of them off, whatever the others have left
behind. -/
namespace Fusions.Hetuflow
open Fusions.Library

def OutboxRecord.Final (r : OutboxRecord) : Prop := r.status = .succeeded ∨ r.status = .deadLetter

instance (r : OutboxRecord) : Decidable r.Final := inferInstanceAs (Decidable (_ ∨ _))

/-- The deliveries of a row that may still be settled. -/
def OutboxRecord.attemptsLeft (r : OutboxRecord) : Nat :=
  if r.Final then 0 else (max r.maxAttempts 1 - r.attemptCount).toNat

def Dispatch.attemptsLeft (s : Dispatch) : Nat := (s.rows.map OutboxRecord.attemptsLeft).sum

/-- Worker `workerId` goes on alone: time passes, the other workers stop, and its deliveries get these answers. -/
def Dispatch.Alone (workerId : String) (answers : OutboxRecord → Except CallbackError Unit) (s : Dispatch) :
    Action → Prop
  | .tick _ => True
  | .enqueue _ => False
  | .giveUp id => id ≠ workerId
  | .poll id _ | .mark id | .commit id => id = workerId
  | .deliver id answer => id = workerId ∧ ∀ c ∈ (s.workers workerId).batch.head?, answer = answers c.record

/-- No other worker is in a pass. -/
def Dispatch.Quiet (workerId : String) (s : Dispatch) : Prop := ∀ id, id ≠ workerId → s.workers id = .idle

section
variable {config : String → WorkerConfig} {answers : OutboxRecord → Except CallbackError Unit} {s t : Dispatch}
  {workerId : String}

end

section
variable (config : String → WorkerConfig) (answers : OutboxRecord → Except CallbackError Unit) {s : Dispatch}
  {workerId : String}

end

end Fusions.Hetuflow
