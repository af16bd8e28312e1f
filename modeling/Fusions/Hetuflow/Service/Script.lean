import Fusions.Hetuflow.Service.Engine

/-! Runs of the engine that can be computed: a script of steps, each one transaction. -/
namespace Fusions.Hetuflow
open Fusions.Library Program

/-- The supply of the `k`th transaction: its clock stands at `k`, its uuids are numbered. -/
def Supply.nth (k : Nat) : Supply where
  now := k
  uuid n := "00000000-0000-4000-8000-0000000000" ++ (toString k ++ toString n)
  uuid_ne_nil n := by
    intro h
    have hchar := congrArg (fun s : String => s.toList[14]?) h
    simp [Uuid.nil] at hchar

theorem Supply.nth_injective (k : Nat) : Function.Injective (Supply.nth k).uuid := by
  intro m n h
  have htexts := congrArg String.toList h
  simp only [Supply.nth, String.toList_append, List.append_cancel_left_eq] at htexts
  have hdigits : Nat.toDigits 10 m = Nat.toDigits 10 n := by simpa using htexts
  rw [← Nat.ofDigitChars_ten_toDigits (n := m), hdigits, Nat.ofDigitChars_ten_toDigits]

/-- A call, computed. -/
def Call.perform (svc : WorkflowService) (fuel : Nat) (env : Env) (tx : Tx) : Call → Option Tx
  | .signal cmd =>
    if cmd.instanceId = tx.rows.inst.id then ((svc.signal fuel cmd).run (exec env) tx).final else none
  | .resubmit scope key => ((svc.resubmit scope tx.rows.inst.id key).run (exec env) tx).final
  | .fireTimer id =>
    match tx.rows.timers.find? (·.id == id) with
    | some t => ((svc.fireTimer fuel (t.intoRecord tx.rows.inst.id)).run (exec env) tx).final
    | none => none
  | .onNotificationDelivered id =>
    if tx.rows.activities.any (·.id == id) then
      ((svc.onNotificationDelivered fuel id).run (exec env) tx).final
    else none
  | .onBusinessCallbackDelivered => (WorkflowService.onBusinessCallbackDelivered.run (exec env) tx).final
  | .onOutboxDeadLetter id activityType lastError =>
    ((WorkflowService.onOutboxDeadLetter id activityType lastError).run (exec env) tx).final

theorem Call.returns_of_perform {svc : WorkflowService} {fuel : Nat} {env : Env} {tx tx' : Tx} {call : Call}
    (h : call.perform svc fuel env tx = some tx') : call.Returns svc env tx tx' := by
  cases call with
  | signal cmd =>
    simp only [perform] at h
    split at h
    · next hid =>
      obtain ⟨out, hout⟩ := Outcome.of_final h
      exact ⟨hid, fuel, out, hout⟩
    · cases h
  | resubmit scope key => exact Outcome.of_final h
  | fireTimer id =>
    simp only [perform] at h
    split at h
    · next t ht =>
      obtain ⟨out, hout⟩ := Outcome.of_final h
      exact ⟨t, List.mem_of_find?_eq_some ht, by simpa using List.find?_some ht, fuel, out, hout⟩
    · cases h
  | onNotificationDelivered id =>
    simp only [perform] at h
    split at h
    · next hany =>
      obtain ⟨out, hout⟩ := Outcome.of_final h
      exact ⟨by simpa using hany, fuel, out, hout⟩
    · cases h
  | onBusinessCallbackDelivered => exact Outcome.of_final h
  | onOutboxDeadLetter id activityType lastError => exact Outcome.of_final h

/-- A step of a script: a start, or a call on the instance at a position of the store. -/
inductive Step where
  | start (cmd : StartCommand)
  | call (index : Nat) (call : Call)

/-- The committed operation of a step and the store it leaves, unless the step fails. -/
def Store.next (svc : WorkflowService) (fuel k : Nat) (store : Store) : Step → Option (Op × Store)
  | .start cmd =>
    match svc.start (Supply.nth k) store cmd with
    | .ok (_, store') => some (.start cmd, store')
    | _ => none
  | .call i call =>
    match store[i]? with
    | none => none
    | some r =>
      let others := store.take i ++ store.drop (i + 1)
      match call.perform svc fuel (Store.env others (Supply.nth k) r.inst) ⟨r, 0⟩ with
      | none => none
      | some tx => some (.call others r call tx.rows, store.take i ++ tx.rows :: store.drop (i + 1))

theorem Store.commits_of_next {svc : WorkflowService} {fuel k : Nat} {store store' : Store} {step : Step}
    {op : Op} (h : store.next svc fuel k step = some (op, store')) : Commits svc store op store' := by
  cases step with
  | start cmd =>
    simp only [next] at h
    split at h
    · next hstart =>
      cases h
      exact .start hstart
    · cases h
  | call i call =>
    simp only [next] at h
    split at h
    · cases h
    next r hr =>
    split at h
    · cases h
    next tx htx =>
    cases h
    obtain ⟨hi, rfl⟩ := List.getElem?_eq_some_iff.1 hr
    have hstore : store = store.take i ++ store[i] :: store.drop (i + 1) := by simp
    have hcommit : Commits svc _ _ _ := .call (Call.returns_of_perform htx)
    rw [← hstore] at hcommit
    exact hcommit

/-- The committed operation of a call leaves the rows it says. -/
theorem Store.call_of_next {svc : WorkflowService} {fuel k i : Nat} {store store' : Store} {call : Call} {op : Op}
    (h : store.next svc fuel k (.call i call) = some (op, store')) :
    ∃ others r r', op = .call others r call r' ∧ r' ∈ store' := by
  simp only [next] at h
  split at h
  · cases h
  split at h
  · cases h
  cases h
  exact ⟨_, _, _, rfl, by simp⟩

/-- The committed operation of a start. -/
theorem Store.start_of_next {svc : WorkflowService} {fuel k : Nat} {store store' : Store} {cmd : StartCommand}
    {op : Op} (h : store.next svc fuel k (.start cmd) = some (op, store')) : op = .start cmd := by
  simp only [next] at h
  split at h
  · cases h
    rfl
  · cases h

/-- Play a script. A step that fails is rolled back; the result lists the committed operations with
the stores they met, and the store they leave. -/
def play (svc : WorkflowService) (fuel : Nat) : Nat → Store → List Step → List (Store × Op) × Store
  | _, store, [] => ([], store)
  | k, store, step :: steps =>
    match store.next svc fuel k step with
    | none => play svc fuel (k + 1) store steps
    | some (op, store') =>
      let rest := play svc fuel (k + 1) store' steps
      ((store, op) :: rest.1, rest.2)

/-- The store a script leaves. -/
def played (svc : WorkflowService) (fuel : Nat) (steps : List Step) : Store := (play svc fuel 0 [] steps).2

/-- A script played from a store is a run from there. -/
theorem runIf_play {svc : WorkflowService} {ok : Store → Op → Prop} {fuel k : Nat} {store : Store}
    {steps : List Step} (hok : ∀ x ∈ (play svc fuel k store steps).1, ok x.1 x.2) :
    (engine svc).RunIf ok store (play svc fuel k store steps).2 := by
  suffices hrun : ∀ {start : Store}, (engine svc).RunIf ok start store →
      (engine svc).RunIf ok start (play svc fuel k store steps).2 from hrun .refl
  intro start hs
  induction steps generalizing k store with
  | nil => exact hs
  | cons step steps ih =>
    unfold play at hok ⊢
    cases hnext : store.next svc fuel k step with
    | none =>
      simp only [hnext] at hok ⊢
      exact ih hok hs
    | some out =>
      simp only [hnext, List.forall_mem_cons] at hok ⊢
      exact ih hok.2 (hs.step (Store.commits_of_next hnext) hok.1)

/-- A played script is a run of the engine. -/
theorem reachableIf_played {svc : WorkflowService} {ok : Store → Op → Prop} (fuel : Nat) (steps : List Step)
    (hok : ∀ x ∈ (play svc fuel 0 [] steps).1, ok x.1 x.2) :
    (engine svc).ReachableIf ok (played svc fuel steps) :=
  (runIf_play hok).reachableIf (.init rfl)

theorem reachable_played (svc : WorkflowService) (fuel : Nat) (steps : List Step) :
    (engine svc).Reachable (played svc fuel steps) :=
  reachableIf_played fuel steps fun _ _ => trivial

/-! Small definitions and commands to script with. -/
namespace Sample

/-- Reads the array at `context.items`. -/
def cel : Cel where
  evalGuard _ _ := .error "CEL eval error: no guard expected"
  evalArray _ context :=
    match context.bind (·.get "items") with
    | some (.arr items) => .ok items
    | _ => .error "CEL eval error: NoSuchKey(items)"
  validateExpression _ := .ok ()

/-- The service over definitions of one hash. -/
def service (hash : String) : WorkflowService := .new .default ⟨[]⟩ cel fun _ => hash

def node (id : String) (config : NodeConfig) : WorkflowNode := ⟨id, id, [], config⟩

def approval (id : String) : WorkflowNode := node id (.approval (some "manager") none none none)

/-- The nodes between the start and the end node, and the transitions. -/
def definition (nodes : List WorkflowNode) (transitions : List WorkflowTransition) : DefinitionSnapshot :=
  ⟨"sample", 1, node "start" .start :: nodes ++ [node "end" (.endNode none)], transitions, 0⟩

def approved (source target : String) : WorkflowTransition := ⟨source, target, .approved⟩

def start (snapshot : DefinitionSnapshot) (context : Option Json) : Step :=
  .start ⟨1, "00000000-0000-4000-8000-00000000f001", "00000000-0000-4000-8000-00000000d001", snapshot,
    "REF-1", "order", "42", context, none⟩

/-- The `n`th uuid of the `k`th transaction. -/
def uuid (k n : Nat) : Uuid := (Supply.nth k).uuid n

/-- A signal of user 7 to an activity of the first instance. -/
def signal (signal : SignalType) (eventType : Option String) (activity : Uuid) : Step :=
  .call 0 (.signal ⟨⟨1, .allInTenant⟩, uuid 0 0, signal, some activity,
    signalStr signal ++ ":" ++ activity, 7, none, eventType, none, none⟩)

def approve (activity : Uuid) : Step := signal .approved none activity

end Sample
end Fusions.Hetuflow
