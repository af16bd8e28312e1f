import Fusions.Library.Runs
import Fusions.Hetuflow.Service.Operations

/-! The whole store under the service: starts and calls, each one transaction. -/
namespace Fusions.Hetuflow
open Fusions.Library Program

/-- All workflow instances with their rows. -/
abbrev Store := List InstanceRows

/-- What the database supplies to one transaction: its clock and its generated uuids. -/
structure Supply where
  now : Time
  uuid : Nat → Uuid
  uuid_ne_nil : ∀ n, uuid n ≠ Uuid.nil

/-- The row is in the partial unique index under this business object. -/
def InstanceRows.isOpenFor (businessKey businessType : String) (r : InstanceRows) : Bool :=
  r.inst.businessKey == businessKey && r.inst.businessType == businessType && r.inst.status.indexed

namespace Store

/-- `active_instance_by_business_key`. -/
def activeInstanceByBusinessKey (store : Store) (businessKey businessType : String) :
    Option InstanceRows :=
  store.find? (InstanceRows.isOpenFor businessKey businessType)

/-- An activity row of these instances, by id. -/
def findActivity (store : Store) (id : Uuid) : Option ActivityInstance :=
  store.findSome? fun r => (r.activities.find? (·.id == id)).map fun a => a.intoModel r.inst.id

/-- The environment of a transaction on one instance beside the others. -/
def env (others : Store) (supply : Supply) (inst : WorkflowInstance) : Env where
  now := supply.now
  uuid := supply.uuid
  uuid_ne_nil := supply.uuid_ne_nil
  foreignActivity := others.findActivity
  openElsewhere := others.any (InstanceRows.isOpenFor inst.businessKey inst.businessType)

end Store

/-- The rows `insert_instance_on_conflict` writes. -/
def insertedRows (supply : Supply) (cmd : StartCommand) : InstanceRows where
  inst := {
    id := supply.uuid 0
    tenantId := cmd.tenantId
    facilityId := cmd.facilityId
    referenceNo := cmd.referenceNo
    workflowDefinitionId := cmd.definitionId
    businessKey := cmd.businessKey
    businessType := cmd.businessType
    status := .active
    currentActivityId := none
    result := none
    sideEffectsExecuted := false
    context := cmd.context
    startedAt := some supply.now
    completedAt := none }
  snapshot := cmd.snapshot
  activities := []
  events := []
  timers := []
  outbox := []

/-- `insert_instance_on_conflict`: nothing is inserted beside an indexed row of the same business
object, and the primary key refuses an id that is taken. -/
def insertInstanceOnConflict (store : Store) (supply : Supply) (cmd : StartCommand) :
    Except FlowError (Option InstanceRows) :=
  if store.any (InstanceRows.isOpenFor cmd.businessKey cmd.businessType) then .ok none
  else if store.any fun r => r.inst.id == supply.uuid 0 then
    .error (.storage "duplicate key value violates unique constraint")
  else .ok (some (insertedRows supply cmd))

namespace WorkflowService
variable (svc : WorkflowService)

/-- `start`, with the store it leaves. -/
def start (supply : Supply) (store : Store) (cmd : StartCommand) : Outcome FlowError (StartOutcome × Store) :=
  match svc.checkStart cmd with
  | .error e => .error e
  | .ok (entryId, entryRole) =>
    match insertInstanceOnConflict store supply cmd with
    | .error e => .error e
    | .ok none =>
      match store.activeInstanceByBusinessKey cmd.businessKey cmd.businessType with
      | none => .error (.conflict
          s!"start conflicted on ({cmd.businessType}, {cmd.businessKey}) but no active instance is readable")
      | some r => .ok (⟨r.inst, false, r.models r.activeRows⟩, store)
    | .ok (some r) =>
      match (svc.startInserted cmd r.inst entryId entryRole).run (exec (store.env supply r.inst)) ⟨r, 1⟩ with
      | .ok (out, tx) => .ok (out, store ++ [tx.rows])
      | .error e => .error e
      | .diverge => .diverge

end WorkflowService

/-- A committed operation: a start, or a call on one instance beside the others. -/
inductive Op where
  | start (cmd : StartCommand)
  | call (others : Store) (r : InstanceRows) (call : Call) (r' : InstanceRows)

/-- The committed operations. One that returns an error or does not return is rolled back and leaves
the store as it was. -/
inductive Commits (svc : WorkflowService) : Store → Op → Store → Prop where
  | start {supply : Supply} {store store' : Store} {cmd : StartCommand} {out : StartOutcome} :
      svc.start supply store cmd = .ok (out, store') → Commits svc store (.start cmd) store'
  | call {supply : Supply} {pre post : Store} {r r' : InstanceRows} {call : Call} {drawn : Nat} :
      call.Returns svc (Store.env (pre ++ post) supply r.inst) ⟨r, 0⟩ ⟨r', drawn⟩ →
      Commits svc (pre ++ r :: post) (.call (pre ++ post) r call r') (pre ++ r' :: post)

/-- The engine: an empty store, and one committed operation after the other. -/
def engine (svc : WorkflowService) : System Store Op where
  init store := store = []
  step := Commits svc

/-- A condition on the calls on one instance; starts and calls on other instances are free. -/
def OnInstance (id : Uuid) (ok : InstanceRows → Call → InstanceRows → Prop) (_ : Store) : Op → Prop
  | .start _ => True
  | .call _ r call r' => r.inst.id = id → ok r call r'

instance (id : Uuid) (ok : InstanceRows → Call → InstanceRows → Prop) [∀ r c r', Decidable (ok r c r')]
    (store : Store) : (op : Op) → Decidable (OnInstance id ok store op)
  | .start _ => .isTrue trivial
  | .call _ r call r' => inferInstanceAs (Decidable (r.inst.id = id → ok r call r'))

/-- The rows of a new instance after its start. -/
structure Started (svc : WorkflowService) (env : Env) (supply : Supply) (cmd : StartCommand)
    (r' : InstanceRows) : Prop where
  valid : validateDefinition svc.cel cmd.snapshot.nodes cmd.snapshot.transitions = .ok ()
  clock : env.now = supply.now
  rows : ∃ entryId entryRole node row r₁,
    decideStart cmd.snapshot.nodes = some (entryId, entryRole) ∧
    findNode cmd.snapshot.nodes entryId = some node ∧
    Scheduled env cmd.tenantId node entryRole 1 none
      ((insertedRows supply cmd).log env.now .started (startedPayload cmd (svc.definitionHash cmd.snapshot)) none)
      row r₁ ∧
    r' = r₁.pointTo row.id

private theorem checkStart_ok {svc : WorkflowService} {cmd : StartCommand} {entry : String × Option String}
    (h : svc.checkStart cmd = .ok entry) :
    validateDefinition svc.cel cmd.snapshot.nodes cmd.snapshot.transitions = .ok () ∧
      decideStart cmd.snapshot.nodes = some entry := by
  unfold WorkflowService.checkStart at h
  cases hv : validateDefinition svc.cel cmd.snapshot.nodes cmd.snapshot.transitions with
  | error e => simp [hv, bind, Except.bind] at h
  | ok u =>
    cases hd : decideStart cmd.snapshot.nodes with
    | none => simp [hv, hd, bind, Except.bind] at h
    | some e =>
      simp only [hv, hd, bind, Except.bind] at h
      refine ⟨rfl, ?_⟩
      split at h
      · cases h; rfl
      · split at h
        · cases h
        · split at h
          · cases h
          · cases h; rfl

private theorem started_of_returns {svc : WorkflowService} {supply : Supply} {store : Store} {cmd : StartCommand}
    {entryId : String} {entryRole : Option String} {out : StartOutcome} {tx : Tx}
    (hcheck : svc.checkStart cmd = .ok (entryId, entryRole))
    (h : Program.Returns (exec (store.env supply (insertedRows supply cmd).inst))
      (svc.startInserted cmd (insertedRows supply cmd).inst entryId entryRole) ⟨insertedRows supply cmd, 1⟩
      out tx) :
    Started svc (store.env supply (insertedRows supply cmd).inst) supply cmd tx.rows := by
  obtain ⟨hvalid, hentry⟩ := checkStart_ok hcheck
  simp only [WorkflowService.startInserted, returns_bind, returns_append, returns_ofExcept, returns_reload,
    returns_pure] at h
  obtain ⟨_, t₁, rfl, node, _, ⟨hnode, rfl⟩, a, t₂, hsched, hit, t₃, hpoint, _, _, ⟨-, rfl⟩, active, t₄,
    hlist, -, rfl⟩ := h
  obtain ⟨row, rfl, hrow⟩ := returns_scheduleActivity hsched
  refine ⟨hvalid, rfl, entryId, entryRole, node, row, t₂.rows, hentry, ?_, hrow, ?_⟩
  · unfold InstanceCtx.node at hnode
    split at hnode
    · next hfind => cases hnode; exact hfind
    · cases hnode
  · rw [((returns_exec rfl _).1 hlist).2, returns_pointTo hpoint]
    rfl

/-- What a start that returns does to the store. -/
theorem start_returns {svc : WorkflowService} {supply : Supply} {store store' : Store} {cmd : StartCommand}
    {out : StartOutcome} (h : svc.start supply store cmd = .ok (out, store')) :
    (∃ r, store.activeInstanceByBusinessKey cmd.businessKey cmd.businessType = some r ∧
        out = ⟨r.inst, false, r.models r.activeRows⟩ ∧ store' = store) ∨
      (store.any (InstanceRows.isOpenFor cmd.businessKey cmd.businessType) = false ∧
        (∀ r ∈ store, r.inst.id ≠ supply.uuid 0) ∧ ∃ r',
          Started svc (store.env supply (insertedRows supply cmd).inst) supply cmd r' ∧
          store' = store ++ [r']) := by
  unfold WorkflowService.start at h
  split at h
  · cases h
  next entryId entryRole hcheck =>
  split at h
  · cases h
  · split at h
    · cases h
    · next r hfound =>
      cases h
      exact .inl ⟨r, hfound, rfl, rfl⟩
  · next r hins =>
    unfold insertInstanceOnConflict at hins
    split at hins
    · cases hins
    next hopen =>
    split at hins
    · cases hins
    next hid =>
    cases hins
    split at h
    · next o tx hrun =>
      cases h
      refine .inr ⟨by simpa using hopen, ?_, tx.rows, started_of_returns hcheck hrun, rfl⟩
      intro r hr heq
      exact hid (List.any_eq_true.2 ⟨r, hr, by simpa using heq⟩)
    · cases h
    · cases h

end Fusions.Hetuflow
