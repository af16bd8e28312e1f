import Mathlib.Algebra.Group.Int.Defs
import Mathlib.Algebra.Group.Nat.Defs
import Fusions.Library.Runs

/-! The event queue in a PostgreSQL table: publishers, workers that claim rows and acknowledge them, and
the reaper of rows that are stuck. Times are in the microseconds of `TIMESTAMPTZ`. -/
namespace Fusions.Mq
open Fusions.Library

abbrev EventId := Nat

abbrev WorkerId := Nat

/-- `status`: pending is 1, processing 2, completed 3 and failed 4. -/
inductive EventStatus where
  | pending
  | processing
  | completed
  | failed
  deriving DecidableEq, Repr

def EventStatus.isTerminal : EventStatus → Bool
  | .completed | .failed => true
  | .pending | .processing => false

structure PublishEvent where
  eventType : String
  sourceService : String
  targetService : String
  payload : String
  maxRetries : Option Nat
  deriving DecidableEq

/-- A row of `event_queue`. -/
structure EventRow where
  id : EventId
  eventType : String
  sourceService : String
  targetService : String
  payload : String
  status : EventStatus
  retryCount : Int
  maxRetries : Int
  errorMessage : Option String
  createdAt : Int
  updatedAt : Int
  processedAt : Option Int
  deriving DecidableEq

structure ClaimedEvent where
  id : EventId
  eventType : String
  payload : String
  retryCount : Nat
  maxRetries : Nat
  createdAt : Int
  deriving DecidableEq

inductive RetryDecision where
  | retry
  | dead
  deriving DecidableEq, Repr

inductive MqError where
  | ackFailed (message : String)
  | notFound (id : EventId)
  deriving DecidableEq, Repr

/-- `std::time::Duration`. -/
structure Duration where
  secs : Nat
  nanos : Nat
  secs_lt : secs < 2 ^ 64
  nanos_lt : nanos < 10 ^ 9
  deriving DecidableEq

def Duration.totalNanos (d : Duration) : Nat := d.secs * 10 ^ 9 + d.nanos

/-- A cast `as i32`. -/
def asI32 (n : Int) : Int := n.bmod (2 ^ 32)

theorem asI32_of_lt {n : Nat} (h : n < 2 ^ 31) : asI32 n = n := by
  refine Int.bmod_eq_of_le ?_ ?_
  · omega
  · omega

/-- A cast of an `i32` `as u32`. -/
def asU32 (n : Int) : Nat := (n % 2 ^ 32).toNat

/-- The range of the `INT` columns. -/
def inI32 (n : Int) : Bool := -2 ^ 31 ≤ n && n < 2 ^ 31

/-- `make_interval(secs => _)`. -/
def makeInterval (secs : Int) : Int := secs * 10 ^ 6

namespace EventRow
variable (row : EventRow)

/-- The row of an event as it is inserted. -/
def published (id : EventId) (event : PublishEvent) (now : Int) : EventRow :=
  ⟨id, event.eventType, event.sourceService, event.targetService, event.payload, .pending, 0,
    asI32 (event.maxRetries.getD 3), none, now, now, none⟩

/-- The `WHERE` of the selection in `claim_pending`. -/
def isClaimable (targetService : String) : Bool :=
  row.targetService = targetService && row.status = .pending && decide (row.retryCount < row.maxRetries)

def claimed (now : Int) : EventRow := { row with status := .processing, updatedAt := now }

def toClaimed : ClaimedEvent :=
  ⟨row.id, row.eventType, row.payload, asU32 row.retryCount, asU32 row.maxRetries, row.createdAt⟩

def processed (now : Int) : EventRow :=
  { row with status := .completed, processedAt := some now, updatedAt := now }

/-- The status that `mark_failed` asks for. -/
def nextStatus : RetryDecision → EventStatus
  | .retry => .pending
  | .dead => .failed

def failed (error : String) (decision : RetryDecision) (now : Int) : EventRow :=
  { row with
    status := if row.maxRetries ≤ row.retryCount + 1 then .failed else nextStatus decision
    errorMessage := some error
    retryCount := row.retryCount + 1
    updatedAt := now }

/-- The `WHERE` of `reap_zombie`. -/
def isZombie (targetService : String) (stuckAfter : Duration) (now : Int) : Bool :=
  row.targetService = targetService && row.status = .processing &&
    decide (row.updatedAt < now - makeInterval (asI32 stuckAfter.secs))

def reaped (now : Int) : EventRow :=
  { row with status := if row.maxRetries ≤ row.retryCount then .failed else .pending, updatedAt := now }

end EventRow

/-- An `UPDATE`. -/
def updateWhere (rows : List EventRow) (cond : EventRow → Bool) (set : EventRow → EventRow) : List EventRow :=
  rows.map fun row => if cond row then set row else row

def affected (rows : List EventRow) (id : EventId) : Except MqError Unit :=
  if rows.any (·.id = id) then .ok () else .error (.notFound id)

def markProcessed (rows : List EventRow) (id : EventId) (now : Int) : List EventRow × Except MqError Unit :=
  (updateWhere rows (·.id = id) (·.processed now), affected rows id)

/-- `mark_failed`. The statement fails as a whole when `retry_count + 1` leaves the column's range. -/
def markFailed (rows : List EventRow) (id : EventId) (error : String) (decision : RetryDecision) (now : Int) :
    List EventRow × Except MqError Unit :=
  if rows.all fun row => row.id != id || inI32 (row.retryCount + 1) then
    (updateWhere rows (·.id = id) (·.failed error decision now), affected rows id)
  else (rows, .error (.ackFailed "integer out of range"))

def reapZombie (rows : List EventRow) (targetService : String) (stuckAfter : Duration) (now : Int) :
    List EventRow × Nat :=
  (updateWhere rows (·.isZombie targetService stuckAfter now) (·.reaped now),
    rows.countP (·.isZombie targetService stuckAfter now))

/-- A `claim_pending` whose transaction is open: the rows that its selection found and has yet to lock, and
those that it holds locked, the last first. -/
structure OpenClaim where
  number : Nat
  worker : WorkerId
  targetService : String
  batchSize : Nat
  now : Int
  selected : Option (List EventId)
  locked : List EventRow
  deriving DecidableEq

/-- An event that a claim returned to its worker, whether the worker has acknowledged it, and whether the
reaper has taken it back since. -/
structure Delivery where
  claim : Nat
  worker : WorkerId
  event : EventId
  claimedAt : Int
  acknowledged : Bool
  reaped : Bool
  deriving DecidableEq

/-- The table, the clock of the database, the claims under way, and on record what was published and
delivered, the latest first. -/
structure EventQueue where
  clock : Int
  rows : List EventRow
  claims : List OpenClaim
  nextClaim : Nat
  crashed : List WorkerId
  publications : List (EventId × PublishEvent)
  deliveries : List Delivery
  batches : List (List ClaimedEvent)
  deriving DecidableEq

/-- What a worker says of an event. -/
inductive Acknowledgement where
  | processed
  | failed (error : String) (decision : RetryDecision)
  deriving DecidableEq

/-- A statement, a move of the clock, or a crash. `now` is where a statement's transaction began. -/
inductive QueueAction where
  | ticks (clock : Int)
  | publishes (id : EventId) (event : PublishEvent) (now : Int)
  | begins (worker : WorkerId) (targetService : String) (batchSize : Nat)
  | selects (claim : OpenClaim) (found : List EventId)
  | locks (claim : OpenClaim)
  | commits (claim : OpenClaim)
  | rollsBack (claim : OpenClaim)
  | acknowledges (delivery : Delivery) (ack : Acknowledgement) (now : Int)
  | reaps (targetService : String) (stuckAfter : Duration) (now : Int)
  | crashes (worker : WorkerId)

namespace EventQueue
variable (s : EventQueue)

def isLocked (id : EventId) : Bool := s.claims.any fun claim => claim.locked.any (·.id = id)

def row? (id : EventId) : Option EventRow := s.rows.find? (·.id = id)

/-- `ORDER BY created_at` over the rows that the selection sees; ties come in any order. -/
def isSelection (targetService : String) (found : List EventId) : Bool :=
  found.isPerm ((s.rows.filter (·.isClaimable targetService)).map EventRow.id) &&
    decide ((found.filterMap s.row?).Pairwise fun row row' => row.createdAt ≤ row'.createdAt)

def putClaim (claim claim' : OpenClaim) : EventQueue := { s with claims := claim' :: s.claims.erase claim }

/-- `FOR UPDATE SKIP LOCKED` on the next row of a selection: a row that is locked is skipped, and one that
is not is read again and checked again. -/
def lockNext (claim : OpenClaim) : Option OpenClaim :=
  match claim.selected with
  | some (id :: rest) =>
    if claim.locked.length < claim.batchSize then
      match (s.row? id).filter fun row => !s.isLocked id && row.isClaimable claim.targetService with
      | some row => some { claim with selected := some rest, locked := row :: claim.locked }
      | none => some { claim with selected := some rest }
    else none
  | _ => none

/-- The selection has found its rows, and the batch is full or no row is left to lock. -/
def isComplete (claim : OpenClaim) : Bool :=
  match claim.selected with
  | some rest => rest.isEmpty || decide (claim.batchSize ≤ claim.locked.length)
  | none => false

/-- The update and the commit of `claim_pending`. Until the commit nobody sees the update. -/
def commit (claim : OpenClaim) : EventQueue :=
  let ids := claim.locked.reverse.map EventRow.id
  { s with
    rows := updateWhere s.rows (fun row => ids.contains row.id) (·.claimed claim.now)
    claims := s.claims.erase claim
    deliveries := ids.map (fun id => ⟨claim.number, claim.worker, id, claim.now, false, false⟩) ++ s.deliveries
    batches := claim.locked.reverse.map EventRow.toClaimed :: s.batches }

/-- The statement of an acknowledgement. -/
def applied (id : EventId) (now : Int) : Acknowledgement → List EventRow × Except MqError Unit
  | .processed => markProcessed s.rows id now
  | .failed error decision => markFailed s.rows id error decision now

/-- A statement that fails changes nothing and acknowledges nothing. -/
def acknowledge (delivery : Delivery) (ack : Acknowledgement) (now : Int) : EventQueue :=
  match s.applied delivery.event now ack with
  | (rows, .ok ()) => { s with
      rows := rows
      deliveries := s.deliveries.map fun d => if d = delivery then { d with acknowledged := true } else d }
  | (_, .error _) => s

def reap (targetService : String) (stuckAfter : Duration) (now : Int) : EventQueue :=
  { s with
    rows := (reapZombie s.rows targetService stuckAfter now).1
    deliveries := s.deliveries.map fun d =>
      if (s.rows.any fun row => row.id = d.event ∧ row.isZombie targetService stuckAfter now) then
        { d with reaped := true }
      else d }

/-- The next state, if the step is possible. An acknowledgement waits for the lock on its row. -/
def next : QueueAction → Option EventQueue
  | .ticks clock => if s.clock ≤ clock then some { s with clock := clock } else none
  | .publishes id event now =>
    if now ≤ s.clock ∧ (s.rows.all (·.id != id)) then
      some { s with
        rows := .published id event now :: s.rows
        publications := (id, event) :: s.publications }
    else none
  | .begins worker targetService batchSize =>
    if worker ∈ s.crashed then none
    else some { s with
      claims := ⟨s.nextClaim, worker, targetService, batchSize, s.clock, none, []⟩ :: s.claims
      nextClaim := s.nextClaim + 1 }
  | .selects claim found =>
    if claim ∈ s.claims ∧ claim.selected = none ∧ s.isSelection claim.targetService found then
      some (s.putClaim claim { claim with selected := some found })
    else none
  | .locks claim => if claim ∈ s.claims then (s.lockNext claim).map (s.putClaim claim) else none
  | .commits claim => if claim ∈ s.claims ∧ isComplete claim then some (s.commit claim) else none
  | .rollsBack claim => if claim ∈ s.claims then some { s with claims := s.claims.erase claim } else none
  | .acknowledges delivery ack now =>
    if now ≤ s.clock ∧ delivery ∈ s.deliveries ∧ delivery.worker ∉ s.crashed ∧ !s.isLocked delivery.event then
      some (s.acknowledge delivery ack now)
    else none
  | .reaps targetService stuckAfter now =>
    if now ≤ s.clock then some (s.reap targetService stuckAfter now) else none
  | .crashes worker => some { s with
      claims := s.claims.filter (·.worker != worker)
      crashed := worker :: s.crashed }

end EventQueue

/-- The queue before its first event. -/
def empty : EventQueue := ⟨0, [], [], 0, [], [], [], []⟩

/-- An event to run the queue with. -/
def orderPaid (maxRetries : Option Nat) : PublishEvent := ⟨"order.paid", "shop", "billing", "", maxRetries⟩

/-- The steps of a claim of one row. -/
def claimOne (number : Nat) (worker : WorkerId) (now : Int) (row : EventRow) : List QueueAction :=
  let opened : OpenClaim := ⟨number, worker, row.targetService, 1, now, none, []⟩
  [.begins worker row.targetService 1, .selects opened [row.id], .locks { opened with selected := some [row.id] },
    .commits { opened with selected := some [], locked := [row] }]

/-- The queues that begin with an empty table. -/
def eventQueues : System EventQueue QueueAction where
  init s := s.rows = [] ∧ s.claims = [] ∧ s.publications = [] ∧ s.deliveries = [] ∧ s.batches = []
  step s action s' := s.next action = some s'

end Fusions.Mq
