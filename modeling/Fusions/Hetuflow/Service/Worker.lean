import Fusions.Library.Runs
import Fusions.Hetuflow.Service.Operations

/-! The outbox dispatchers: every worker leases due records, delivers them outside any transaction, and
settles each in a transaction of its own. -/
namespace Fusions.Hetuflow
open Fusions.Library

/-- `workflow_activity_outbox.status`. -/
inductive OutboxStatus where
  | pending
  | leased
  | succeeded
  | deadLetter
  deriving DecidableEq, Repr

/-- A row of the outbox with its lease. -/
structure OutboxRecord where
  id : Uuid
  workflowInstanceId : Uuid
  activityInstanceId : Uuid
  activityType : String
  status : OutboxStatus
  leaseOwner : Option String
  leaseExpiresAt : Option Time
  attemptCount : Int
  maxAttempts : Int
  nextAttemptAt : Time
  lastError : Option String
  deriving DecidableEq, Repr

inductive CallbackErrorKind where
  | deterministic
  | transient
  deriving DecidableEq, Repr

structure CallbackError where
  kind : CallbackErrorKind
  message : String
  deriving DecidableEq, Repr

structure WorkerConfig where
  leaseTtlSecs : Int
  batchSize : Nat
  retryBaseSecs : Int
  retryCapSecs : Int
  deriving DecidableEq, Repr

/-- `i64::saturating_mul`. -/
def saturatingMul (a b : Int) : Int := max (-2 ^ 63) (min (a * b) (2 ^ 63 - 1))

def retryBackoffSecs (attempt base cap : Int) : Int :=
  if attempt < 0 then base else min (saturatingMul base (2 ^ (min attempt 20).toNat)) cap

namespace OutboxRecord

/-- `next_attempt_at <= now() AND (status = 1 OR (status = 2 AND lease_expires_at < now()))`. -/
def isDue (now : Time) (r : OutboxRecord) : Bool :=
  r.nextAttemptAt ≤ now && (r.status == .pending || (r.status == .leased && r.leaseExpiresAt.any (· < now)))

def lease (workerId : String) (expiresAt : Time) (r : OutboxRecord) : OutboxRecord :=
  { r with status := .leased, leaseOwner := some workerId, leaseExpiresAt := some expiresAt }

/-- `id = $1 AND lease_owner = $2 AND status = 2`. -/
def isHeldBy (id : Uuid) (workerId : String) (r : OutboxRecord) : Bool :=
  r.id == id && r.leaseOwner == some workerId && r.status == .leased

def succeed (r : OutboxRecord) : OutboxRecord :=
  { r with status := .succeeded, leaseOwner := none, leaseExpiresAt := none, lastError := none }

def retry (nextAttemptAt : Time) (lastError : String) (r : OutboxRecord) : OutboxRecord :=
  { r with
    status := .pending
    attemptCount := r.attemptCount + 1
    leaseOwner := none
    leaseExpiresAt := none
    nextAttemptAt := nextAttemptAt
    lastError := some lastError }

def deadLetter (lastError : String) (r : OutboxRecord) : OutboxRecord :=
  { r with
    status := .deadLetter
    attemptCount := r.attemptCount + 1
    leaseOwner := none
    leaseExpiresAt := none
    lastError := some lastError }

end OutboxRecord

/-- An `UPDATE` of the row that the worker holds: `n > 0`, and the rows. -/
def markOutbox (f : OutboxRecord → OutboxRecord) (id : Uuid) (workerId : String) (rows : List OutboxRecord) :
    Bool × List OutboxRecord :=
  (rows.any (OutboxRecord.isHeldBy id workerId), rows.map fun r => if r.isHeldBy id workerId then f r else r)

def markOutboxSucceeded (id : Uuid) (workerId : String) : List OutboxRecord → Bool × List OutboxRecord :=
  markOutbox OutboxRecord.succeed id workerId

def markOutboxRetry (now : Time) (id : Uuid) (workerId : String) (backoffSecs : Int) (lastError : String) :
    List OutboxRecord → Bool × List OutboxRecord :=
  markOutbox (OutboxRecord.retry (now + backoffSecs) lastError) id workerId

def markOutboxDeadLetter (id : Uuid) (workerId : String) (lastError : String) :
    List OutboxRecord → Bool × List OutboxRecord :=
  markOutbox (OutboxRecord.deadLetter lastError) id workerId

/-- What a settlement writes, and the call that its transaction makes after that. -/
inductive Settlement where
  | succeeded (followUp : Option Call)
  | retry (backoffSecs : Int) (lastError : String)
  | deadLetter (lastError : String) (followUp : Call)

namespace Settlement

/-- Its update of the outbox. -/
def mark (now : Time) (id : Uuid) (workerId : String) : Settlement → List OutboxRecord → Bool × List OutboxRecord
  | .succeeded _ => markOutboxSucceeded id workerId
  | .retry backoffSecs lastError => markOutboxRetry now id workerId backoffSecs lastError
  | .deadLetter lastError _ => markOutboxDeadLetter id workerId lastError

def isSuccess : Settlement → Bool
  | .succeeded _ => true
  | _ => false

/-- A success whose delivery moves the graph. -/
def hasFollowUp : Settlement → Bool
  | .succeeded followUp => followUp.isSome
  | _ => false

def isDeath : Settlement → Bool
  | .deadLetter .. => true
  | _ => false

def isFailure (s : Settlement) : Bool := !s.isSuccess

end Settlement

/-- `settle_success`: a delivered notification and a delivered callback are reported to the instance,
the delivery of a reminder or an escalation moves nothing. -/
def settleSuccess (record : OutboxRecord) : Settlement :=
  .succeeded (
    if record.activityType = "notification" then some (.onNotificationDelivered record.activityInstanceId)
    else if record.activityType = "business_callback" then some .onBusinessCallbackDelivered
    else none)

/-- `settle_failure`, decided from the record as it was leased. -/
def settleFailure (config : WorkerConfig) (record : OutboxRecord) (error : CallbackError) : Settlement :=
  let exhausted := record.attemptCount + 1 ≥ record.maxAttempts
  if error.kind = .deterministic ∨ exhausted then
    .deadLetter error.message (.onOutboxDeadLetter record.activityInstanceId record.activityType error.message)
  else
    .retry (asI32 (retryBackoffSecs record.attemptCount config.retryBaseSecs config.retryCapSecs)) error.message

def settle (config : WorkerConfig) (record : OutboxRecord) : Except CallbackError Unit → Settlement
  | .ok _ => settleSuccess record
  | .error e => settleFailure config record e

/-- A record as a poll returned it, and how many leases there had been by then. -/
structure Claim where
  record : OutboxRecord
  since : Nat
  deriving DecidableEq

/-- A pass of a dispatcher: the claims still to be worked off, the answer of the port for the first of
them, and the uncommitted settlement that its transaction has written. -/
structure Worker where
  batch : List Claim
  delivered : Option (Except CallbackError Unit)
  settling : Option (Time × Settlement)

def Worker.idle : Worker := ⟨[], none, none⟩

/-- The outbox and the dispatchers by their ids. The leases given and the settlements committed so far
are on record in order. -/
structure Dispatch where
  now : Time
  rows : List OutboxRecord
  workers : String → Worker
  leases : List (Uuid × String)
  settled : List (Uuid × Settlement)

namespace Dispatch

def setWorker (s : Dispatch) (workerId : String) (worker : Worker) : Dispatch :=
  { s with workers := fun id => if id = workerId then worker else s.workers id }

/-- A settling transaction has the row locked. -/
def Locked (s : Dispatch) (id : Uuid) : Prop :=
  ∃ workerId c rest, (s.workers workerId).batch = c :: rest ∧ c.record.id = id ∧
    (s.workers workerId).settling.isSome = true

/-- `ORDER BY next_attempt_at FOR UPDATE SKIP LOCKED LIMIT $3` over the due rows. -/
structure Picks (s : Dispatch) (limit : Nat) (picked : List OutboxRecord) : Prop where
  nodup : picked.Nodup
  due : ∀ r ∈ picked, r ∈ s.rows ∧ r.isDue s.now = true ∧ ¬ s.Locked r.id
  length_le : picked.length ≤ limit
  first : ∀ r ∈ s.rows, r.isDue s.now = true → ¬ s.Locked r.id → r ∉ picked →
    picked.length = limit ∧ ∀ p ∈ picked, p.nextAttemptAt ≤ r.nextAttemptAt

/-- `poll_due_outbox`. -/
def pollDueOutbox (s : Dispatch) (workerId : String) (leaseTtlSecs : Int) (picked : List OutboxRecord) : Dispatch :=
  let lease := OutboxRecord.lease workerId (s.now + leaseTtlSecs)
  let leases := s.leases ++ picked.map fun r => (r.id, workerId)
  { s.setWorker workerId ⟨picked.map fun r => ⟨lease r, leases.length⟩, none, none⟩ with
    rows := s.rows.map fun r => if r ∈ picked then lease r else r
    leases := leases }

end Dispatch

/-- What happens: time passes, an engine transaction adds a record, or a worker goes on. A worker whose
process stops, or whose settling transaction fails, gives up its pass. -/
inductive Action where
  | tick (now : Time)
  | enqueue (record : OutboxRecord)
  | poll (workerId : String) (picked : List OutboxRecord)
  | deliver (workerId : String) (answer : Except CallbackError Unit)
  | mark (workerId : String)
  | commit (workerId : String)
  | giveUp (workerId : String)

/-- The steps of `run_once` of every worker, in any order. -/
inductive Dispatch.Step (config : String → WorkerConfig) : Dispatch → Action → Dispatch → Prop where
  | tick {s : Dispatch} {now : Time} : s.now ≤ now → Step config s (.tick now) { s with now := now }
  | enqueue {s : Dispatch} {r : OutboxRecord} : (∀ x ∈ s.rows, x.id ≠ r.id) → r.status = .pending →
      r.leaseOwner = none → r.attemptCount = 0 → Step config s (.enqueue r) { s with rows := s.rows ++ [r] }
  | poll {s : Dispatch} {workerId : String} {picked : List OutboxRecord} : (s.workers workerId).batch = [] →
      s.Picks (config workerId).batchSize picked →
      Step config s (.poll workerId picked) (s.pollDueOutbox workerId (config workerId).leaseTtlSecs picked)
  | deliver {s : Dispatch} {workerId : String} {answer : Except CallbackError Unit} :
      (s.workers workerId).batch ≠ [] → (s.workers workerId).delivered = none →
      Step config s (.deliver workerId answer)
        (s.setWorker workerId { s.workers workerId with delivered := some answer })
  | mark {s : Dispatch} {workerId : String} {c : Claim} {rest : List Claim} {answer : Except CallbackError Unit}
      {settlement : Settlement} :
      (s.workers workerId).batch = c :: rest → (s.workers workerId).delivered = some answer →
      (s.workers workerId).settling = none → ¬ s.Locked c.record.id →
      settlement = settle (config workerId) c.record answer →
      (settlement.mark s.now c.record.id workerId s.rows).1 = true →
      Step config s (.mark workerId)
        (s.setWorker workerId { s.workers workerId with settling := some (s.now, settlement) })
  | miss {s : Dispatch} {workerId : String} {c : Claim} {rest : List Claim} {answer : Except CallbackError Unit} :
      (s.workers workerId).batch = c :: rest → (s.workers workerId).delivered = some answer →
      (s.workers workerId).settling = none → ¬ s.Locked c.record.id →
      ((settle (config workerId) c.record answer).mark s.now c.record.id workerId s.rows).1 = false →
      Step config s (.mark workerId) (s.setWorker workerId ⟨rest, none, none⟩)
  | commit {s : Dispatch} {workerId : String} {c : Claim} {rest : List Claim} {began : Time}
      {settlement : Settlement} :
      (s.workers workerId).batch = c :: rest → (s.workers workerId).settling = some (began, settlement) →
      Step config s (.commit workerId)
        { s.setWorker workerId ⟨rest, none, none⟩ with
          rows := (settlement.mark began c.record.id workerId s.rows).2
          settled := s.settled ++ [(c.record.id, settlement)] }
  | giveUp {s : Dispatch} {workerId : String} :
      Step config s (.giveUp workerId) (s.setWorker workerId .idle)

/-- The outbox with its dispatchers, at first empty and idle. -/
def dispatchers (config : String → WorkerConfig) : System Dispatch Action where
  init s := s.rows = [] ∧ (∀ workerId, s.workers workerId = .idle) ∧ s.leases = [] ∧ s.settled = []
  step := Dispatch.Step config

end Fusions.Hetuflow
