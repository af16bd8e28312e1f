import Fusions.Library.Runs
import Fusions.Ai.GraphFlow.Context
import Fusions.Ai.GraphFlow.Steps

/-! `FlowRunner::run` over a storage that keeps sessions in memory, where a stored session and the one that runs
have the same context, and over one that serialises them. -/
namespace Fusions.Ai
open Fusions.Library

/-- The session with another context. -/
def Session.withContext {C D : Type} (session : Session C) (context : D) : Session D :=
  ⟨session.id, session.graphId, session.currentTaskId, session.statusMessage, context⟩

namespace Graph
variable {C : Type}

/-- The graph on the heap: its tasks and conditions work on the cells of a context. -/
def onHeap (graph : Graph Context) (context : ContextRef) : Graph Heap where
  tasks taskId := (graph.tasks taskId).map fun task heap =>
    ((task (heap.load context)).1, heap.store context (task (heap.load context)).2)
  edges := graph.edges.map fun edge =>
    ⟨edge.source, edge.target, edge.condition.map fun condition heap => condition (heap.load context)⟩

variable (graph : Graph C)

/-- The tasks that a call runs from a task on: the next one too if it continues at once. -/
def chain : Nat → String → C → List String
  | 0, _, _ => []
  | fuel + 1, taskId, context => taskId ::
    match graph.tasks taskId with
    | none => []
    | some task =>
      match task context with
      | (.ok result, context) =>
        if result.nextAction = .continueAndExecute then
          match graph.findNextTask taskId context with
          | some next => chain fuel next context
          | none => []
        else []
      | (.error _, _) => []

/-- The context after tasks that run one after the other. -/
def effect : List String → C → C
  | [], context => context
  | taskId :: tasks, context =>
    match graph.tasks taskId with
    | none => effect tasks context
    | some task => effect tasks (task context).2

end Graph

/-- `InMemorySessionStorage`, and the cells that its sessions refer to. -/
structure InMemorySessionStorage where
  sessions : String → Option (Session ContextRef)
  heap : Heap

namespace InMemorySessionStorage
variable (storage : InMemorySessionStorage)

/-- What a `get` shows. -/
def get (id : String) : Option (Session Context) :=
  (storage.sessions id).map fun session => session.withContext (storage.heap.load session.context)

/-- `save` is an insert by the session's id. -/
def save (session : Session ContextRef) : InMemorySessionStorage :=
  { storage with sessions := Function.update storage.sessions session.id (some session) }

/-- `FlowRunner::run`. The clone that `get` returns has the stored session's cells. -/
def run (graph : Graph Context) (fuel : Nat) (id : String) :
    Option (Except GraphError ExecutionResult × InMemorySessionStorage) :=
  match storage.sessions id with
  | none => some (.error (.sessionNotFound id), storage)
  | some session =>
    ((graph.onHeap session.context).runSession fuel (session.withContext storage.heap)).map fun run =>
      let storage := { storage with heap := run.session.context }
      match run.result with
      | .ok result => (.ok result, storage.save (run.session.withContext session.context))
      | .error error => (.error error, storage)

/-- The tasks that the call runs leave the session's context, all together, as it was. -/
def Undisturbed (graph : Graph Context) (fuel : Nat) (id : String) : Prop :=
  ∀ session ∈ storage.sessions id, let context := storage.heap.load session.context
    graph.effect (graph.chain fuel session.currentTaskId context) context = context

/-- The calls of `run` on any storage, each with its bound on the tasks that continue at once. -/
def calls (graph : Graph Context) : System InMemorySessionStorage (Nat × String) where
  init _ := True
  step storage call storage' := ∃ result, storage.run graph call.1 call.2 = some (result, storage')

/-- A call that returns Ok. -/
def Succeeds (graph : Graph Context) (storage : InMemorySessionStorage) (call : Nat × String) : Prop :=
  ∃ result storage', storage.run graph call.1 call.2 = some (.ok result, storage')

end InMemorySessionStorage

/-- How a storage serialises a session. -/
structure SessionCodec (T : Type) where
  encode : Session Context → Except GraphError T
  decode : T → Except GraphError (Session Context)

/-- A storage that keeps sessions as what they were serialised to. -/
abbrev SerialisedStorage (T : Type) := String → Option T

namespace SerialisedStorage
variable {T : Type} (codec : SessionCodec T) (storage : SerialisedStorage T)

def get (id : String) : Except GraphError (Option (Session Context)) :=
  match storage id with
  | none => .ok none
  | some row => (codec.decode row).map some

def save (session : Session Context) : Except GraphError (SerialisedStorage T) :=
  (codec.encode session).map fun row => Function.update storage session.id (some row)

/-- `FlowRunner::run`. The session that `get` returns has cells of its own. -/
def run (graph : Graph Context) (fuel : Nat) (id : String) :
    Option (Except GraphError ExecutionResult × SerialisedStorage T) :=
  match storage.get codec id with
  | .error error => some (.error error, storage)
  | .ok none => some (.error (.sessionNotFound id), storage)
  | .ok (some session) => (graph.runSession fuel session).map fun run =>
    match run.result with
    | .error error => (.error error, storage)
    | .ok result =>
      match storage.save codec run.session with
      | .error error => (.error error, storage)
      | .ok storage => (.ok result, storage)

end SerialisedStorage

namespace Graph
variable {C : Type} {graph : Graph C} {session : Session C} {run : SessionRun C}

/-- The context that a call leaves, whatever its result. -/
theorem context_of_runSession {fuel : Nat} (h : graph.runSession fuel session = some run) :
    run.session.context = graph.effect (graph.chain fuel session.currentTaskId session.context) session.context := by
  induction fuel generalizing session run with
  | zero => cases h
  | succ fuel ih =>
    simp only [runSession, executeTask] at h
    cases htask : graph.tasks session.currentTaskId with
    | none =>
      simp only [htask, Option.some.injEq] at h
      subst h
      simp [chain, effect, htask]
    | some task =>
      simp only [htask] at h
      simp only [chain, effect, htask]
      rcases hrun : task session.context with ⟨outcome, context⟩
      cases outcome with
      | error failure =>
        simp only [hrun, Option.some.injEq] at h
        subst h
        simp [effect]
      | ok result =>
        simp only [hrun] at h
        rcases hafter : graph.afterTask result { session with context := context, statusMessage := result.statusMessage }
          with ⟨_ | ended, left⟩
        · obtain ⟨haction, next, hnext, rfl⟩ := afterTask_of_none hafter
          simp only [hafter, Option.map_eq_some_iff] at h
          obtain ⟨rest, hrest, rfl⟩ := h
          simp only [haction, if_true, hnext]
          exact ih hrest
        · obtain ⟨hcontext, hnext⟩ := afterTask_of_some hafter
          simp only [hafter, Option.some.injEq] at h
          subst h
          by_cases haction : result.nextAction = .continueAndExecute
          · simp only [haction, if_true, hnext haction]
            exact hcontext
          · simp only [haction, if_false]
            exact hcontext

end Graph
namespace Graph
variable {graph : Graph Context} {context : ContextRef} {heap : Heap}

theorem findNextTask_onHeap (current : String) :
    (graph.onHeap context).findNextTask current heap = graph.findNextTask current (heap.load context) := by
  simp only [findNextTask, onHeap, List.filter_map, List.find?_map, Function.comp_def, Option.any_map,
    Option.isNone_map, ← Option.map_or, Option.map_map]

theorem afterTask_onHeap (result : TaskResult) (session : Session Heap) :
    (graph.onHeap context).afterTask result session =
      ((graph.afterTask result (session.withContext (session.context.load context))).1,
        (graph.afterTask result (session.withContext (session.context.load context))).2.withContext session.context) := by
  have htasks (id : String) : ((graph.onHeap context).tasks id).isSome = (graph.tasks id).isSome := by simp [onHeap]
  simp only [afterTask, findNextTask_onHeap, htasks, Session.withContext]
  cases result.nextAction with
  | «continue» | continueAndExecute =>
    cases graph.findNextTask session.currentTaskId (session.context.load context) <;> rfl
  | goTo target => by_cases htarget : (graph.tasks target).isSome <;> simp [htarget]
  | goBack | «end» | waitForInput => rfl

theorem executeTask_onHeap (session : Session Heap) : (graph.onHeap context).executeTask session =
    let step := graph.executeTask (session.withContext (session.context.load context))
    (step.1, step.2.withContext (session.context.store context step.2.context)) := by
  have htasks : (graph.onHeap context).tasks session.currentTaskId =
      (graph.tasks session.currentTaskId).map fun task heap =>
        ((task (heap.load context)).1, heap.store context (task (heap.load context)).2) := rfl
  simp only [executeTask, htasks, Session.withContext]
  cases graph.tasks session.currentTaskId with
  | none => simp
  | some task =>
    rcases hrun : task (session.context.load context) with ⟨outcome, value⟩
    cases outcome with
    | error failure => simp [hrun]
    | ok result =>
      simp [hrun, afterTask_onHeap, Session.withContext]

/-- A call on the heap does to the context's cells what the call does to the context. -/
theorem runSession_onHeap (fuel : Nat) (session : Session Heap) :
    (graph.onHeap context).runSession fuel session =
      (graph.runSession fuel (session.withContext (session.context.load context))).map fun run =>
        ⟨run.tasks, run.result, run.session.withContext (session.context.store context run.session.context)⟩ := by
  induction fuel generalizing session with
  | zero => rfl
  | succ fuel ih =>
    rw [runSession, runSession, executeTask_onHeap]
    rcases graph.executeTask (session.withContext (session.context.load context)) with ⟨_ | outcome, left⟩
    · simp only [ih, Option.map_map, Session.withContext, Heap.load_store, Heap.store_store]
      rfl
    · rfl

end Graph

/-- A call that fails saves nothing. -/
theorem SerialisedStorage.run_error {T : Type} {codec : SessionCodec T} {storage storage' : SerialisedStorage T}
    {graph : Graph Context} {fuel : Nat} {id : String} {error : GraphError}
    (h : storage.run codec graph fuel id = some (.error error, storage')) : storage' = storage := by
  unfold SerialisedStorage.run at h
  split at h
  · cases h
    rfl
  · cases h
    rfl
  · obtain ⟨run, -, h⟩ := Option.map_eq_some_iff.1 h
    split at h
    · cases h
      rfl
    · split at h <;> cases h
      rfl

namespace InMemorySessionStorage
variable {graph : Graph Context} {storage storage' : InMemorySessionStorage} {fuel : Nat} {id : String}

/-- A call that fails keeps what its tasks wrote to the session's context, and nothing else. -/
theorem run_error {error : GraphError} (h : storage.run graph fuel id = some (.error error, storage')) :
    (storage.sessions id = none ∧ storage' = storage) ∨
    ∃ session, storage.sessions id = some session ∧
      let context := storage.heap.load session.context
      storage' = { storage with
        heap := storage.heap.store session.context
          (graph.effect (graph.chain fuel session.currentTaskId context) context) } := by
  unfold run at h
  cases hsession : storage.sessions id with
  | none =>
    simp only [hsession, Option.some.injEq, Prod.mk.injEq] at h
    exact .inl ⟨rfl, h.2.symm⟩
  | some session =>
    refine .inr ⟨session, rfl, ?_⟩
    simp only [hsession, Graph.runSession_onHeap, Option.map_map, Option.map_eq_some_iff] at h
    obtain ⟨run, hrun, h⟩ := h
    have hcontext := Graph.context_of_runSession hrun
    simp only [Function.comp_apply, Session.withContext] at h
    split at h
    · cases h
    · cases h
      simpa [Session.withContext] using congrArg (storage.heap.store session.context) hcontext

/-- A failing call that meets the condition changes nothing at all. -/
theorem Undisturbed.run_error {error : GraphError} (hcall : storage.Undisturbed graph fuel id)
    (h : storage.run graph fuel id = some (.error error, storage')) : storage' = storage := by
  obtain ⟨-, rfl⟩ | ⟨session, hsession, rfl⟩ := InMemorySessionStorage.run_error h
  · rfl
  · rw [hcall session hsession, Heap.store_load]

/-- After a call that fails, the stored session is as before exactly when the tasks that the call ran, the failing one
and those before it, leave the context as it was: they write to the context of the stored session. In runs where that
is so for all calls that fail, these calls may as well not have been made, and where sessions are serialised, a call
that fails changes nothing. -/
theorem failed_call_keeps_session_iff (graph : Graph Context) :
    (∀ storage, (calls graph).Reachable storage → ∀ fuel id error storage',
      storage.run graph fuel id = some (.error error, storage') →
      (storage'.get id = storage.get id ↔ storage.Undisturbed graph fuel id)) ∧
    (∀ storage storage', (calls graph).RunIf (fun storage call =>
        Succeeds graph storage call ∨ storage.Undisturbed graph call.1 call.2) storage storage' →
      (calls graph).RunIf (Succeeds graph) storage storage') ∧
    (∀ (T : Type) (codec : SessionCodec T) (storage : SerialisedStorage T) fuel id error storage',
      storage.run codec graph fuel id = some (.error error, storage') → storage'.get codec = storage.get codec) := by
  refine ⟨fun storage _ fuel id error storage' h => ?_, fun storage storage' h => ?_, ?_⟩
  · constructor
    · intro hget session hsession
      obtain ⟨hnone, -⟩ | ⟨session', hsession', rfl⟩ := run_error h
      · rw [hnone] at hsession
        cases hsession
      · obtain rfl := Option.some.inj (hsession'.symm.trans hsession)
        have hcontext := congrArg (Option.map Session.context) hget
        simpa [get, hsession', Session.withContext] using hcontext
    · intro hcall
      rw [hcall.run_error h]
  · induction h with
    | refl => exact .refl
    | step _ hstep hok ih =>
      obtain ⟨result, hrun⟩ := hstep
      cases result with
      | ok result => exact ih.step ⟨_, hrun⟩ ⟨_, _, hrun⟩
      | error error =>
        have hcall := hok.resolve_left fun hsucceeds => by
          obtain ⟨result, storage', hsome⟩ := hsucceeds
          rw [hrun] at hsome
          cases hsome
        rw [hcall.run_error hrun]
        exact ih
  · intro T codec storage fuel id error storage' h
    rw [SerialisedStorage.run_error h]

/-- A task that counts its attempt and tells of it, and then fails. -/
def charging : Graph Context where
  tasks taskId := if taskId = "charge" then some fun context =>
      (.error (.failed "declined"),
        { data := Function.update context.data "attempts" (some (.num 1))
          chatHistory := context.chatHistory.addMessage ⟨.assistant, "charging", 0⟩ })
    else none
  edges := []

/-- An order that is stored with an empty context. -/
def ordered : InMemorySessionStorage where
  sessions id := if id = "order" then some ⟨"order", "default", "charge", none, ⟨0, 0⟩⟩ else none
  heap := ⟨fun _ _ => none, fun _ => ⟨[], some 1000⟩⟩

theorem charging_is_kept : ∃ error storage',
    ordered.run charging 1 "order" = some (.error error, storage') ∧
    (ordered.get "order").map (fun session => (session.context.data "attempts", session.context.chatHistory.messages)) =
      some (none, []) ∧
    (storage'.get "order").map (fun session =>
        (session.context.data "attempts", session.context.chatHistory.messages)) =
      some (some (.num 1), [⟨.assistant, "charging", 0⟩]) :=
  ⟨_, _, rfl, rfl, rfl⟩

end InMemorySessionStorage

end Fusions.Ai
