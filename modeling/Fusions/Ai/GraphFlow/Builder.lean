import Fusions.Library.Runs
import Fusions.Ai.GraphFlow.Steps

/-! Graphs from a `GraphBuilder`, and whether their sessions keep pointing at a task of the graph. -/
namespace Fusions.Ai
open Fusions.Library
variable {C : Type}

/-- A task: its id, and what comes of running it on a context under the graph's timeout. -/
structure Task (C : Type) where
  id : String
  run : C → Except TaskFailure TaskResult × C

/-- The tasks are a `HashMap` by id. The timeout is in seconds. -/
structure GraphBuilder (C : Type) where
  id : String
  tasks : List (Task C)
  edges : List (Edge C)
  startTaskId : Option String
  taskTimeout : Nat

namespace GraphBuilder

def new (id : String) : GraphBuilder C := ⟨id, [], [], none, 300⟩

variable (builder : GraphBuilder C)

def get (taskId : String) : Option (Task C) := builder.tasks.find? (·.id == taskId)

/-- The first task added becomes the default start task. -/
def addTask (task : Task C) : GraphBuilder C :=
  { builder with
    startTaskId := if builder.tasks.isEmpty then some task.id else builder.startTaskId
    tasks := task :: builder.tasks.filter (·.id != task.id) }

def addEdge (source target : String) : GraphBuilder C :=
  { builder with edges := builder.edges ++ [⟨source, target, none⟩] }

def addConditionalEdge (source : String) (condition : C → Bool) (yes no : String) : GraphBuilder C :=
  { builder with edges := builder.edges ++ [⟨source, yes, some condition⟩, ⟨source, no, none⟩] }

/-- Ignored if the task was never added. -/
def setStartTask (taskId : String) : GraphBuilder C :=
  if (builder.get taskId).isSome then { builder with startTaskId := some taskId } else builder

def withTaskTimeout (timeout : Nat) : GraphBuilder C := { builder with taskTimeout := timeout }

/-- `build` warns of tasks without edges, and freezes the builder as it is. -/
def build : Graph C where
  tasks taskId := (builder.get taskId).map Task.run
  edges := builder.edges

end GraphBuilder

inductive BuilderCall (C : Type) where
  | addTask (task : Task C)
  | addEdge (source target : String)
  | addConditionalEdge (source : String) (condition : C → Bool) (yes no : String)
  | setStartTask (taskId : String)
  | withTaskTimeout (timeout : Nat)

/-- The id of the task that a call adds. -/
def BuilderCall.added : BuilderCall C → List String
  | .addTask task => [task.id]
  | _ => []

/-- Where the edges of a call lead. -/
def BuilderCall.targets : BuilderCall C → List String
  | .addEdge _ target => [target]
  | .addConditionalEdge _ _ yes no => [yes, no]
  | _ => []

def GraphBuilder.call (builder : GraphBuilder C) : BuilderCall C → GraphBuilder C
  | .addTask task => builder.addTask task
  | .addEdge source target => builder.addEdge source target
  | .addConditionalEdge source condition yes no => builder.addConditionalEdge source condition yes no
  | .setStartTask taskId => builder.setStartTask taskId
  | .withTaskTimeout timeout => builder.withTaskTimeout timeout

/-- The graph of a sequence of calls on a new builder. -/
def built (id : String) (calls : List (BuilderCall C)) : Graph C :=
  (calls.foldl GraphBuilder.call (.new id)).build

namespace Graph
variable (graph : Graph C)

def HasTask (taskId : String) : Prop := (graph.tasks taskId).isSome

instance (taskId : String) : Decidable (graph.HasTask taskId) :=
  inferInstanceAs (Decidable ((graph.tasks taskId).isSome = true))

/-- The calls of `execute_session` on a session that points at a task of the graph, with any context. -/
def sessions : System (Session C) (SessionRun C) where
  init session := graph.HasTask session.currentTaskId
  step session run session' := graph.Returns session run ∧ session' = run.session

/-- Where a task of the graph continues, on any context, the edge that is picked leads to a task. -/
def LeadsToTasks : Prop := ∀ taskId task context result left next,
  graph.tasks taskId = some task → task context = (.ok result, left) →
  result.nextAction = .continue ∨ result.nextAction = .continueAndExecute →
  graph.findNextTask taskId left = some next → graph.HasTask next

variable {graph}
variable {session : Session C} {run : SessionRun C}

theorem mem_edges_of_findNextTask {current next : String} {context : C}
    (h : graph.findNextTask current context = some next) : ∃ edge ∈ graph.edges, edge.target = next := by
  obtain ⟨edge, hedge, rfl⟩ := Option.map_eq_some_iff.1 h
  refine ⟨edge, ?_, rfl⟩
  have hmem : edge ∈ graph.edges.filter (·.source == current) := by
    rcases Option.or_eq_some_iff.1 hedge with hedge | ⟨-, hedge⟩ <;> exact List.mem_of_find?_eq_some hedge
  exact (List.mem_filter.1 hmem).1

/-- It is enough that every edge ends at a task. -/
theorem leadsToTasks_of_edges (h : ∀ edge ∈ graph.edges, graph.HasTask edge.target) : graph.LeadsToTasks := by
  intro taskId task context result left next _ _ _ hnext
  obtain ⟨edge, hedge, rfl⟩ := mem_edges_of_findNextTask hnext
  exact h edge hedge

theorem hasTask_call (builder : GraphBuilder C) (call : BuilderCall C) (taskId : String) :
    (builder.call call).build.HasTask taskId ↔ builder.build.HasTask taskId ∨ taskId ∈ call.added := by
  simp only [HasTask, GraphBuilder.build, Option.isSome_map, GraphBuilder.get, List.find?_isSome]
  cases call with
  | addTask task =>
    by_cases hid : task.id = taskId
    · simp [GraphBuilder.call, GraphBuilder.addTask, BuilderCall.added, hid]
    · have hne : ¬ taskId = task.id := fun h => hid h.symm
      simp only [GraphBuilder.call, GraphBuilder.addTask, BuilderCall.added, List.mem_cons, List.mem_filter,
        List.not_mem_nil, or_false, hne]
      constructor
      · rintro ⟨other, rfl | ⟨hother, -⟩, hfound⟩
        · exact absurd (eq_of_beq hfound) hid
        · exact ⟨other, hother, hfound⟩
      · rintro ⟨other, hother, hfound⟩
        refine ⟨other, .inr ⟨hother, ?_⟩, hfound⟩
        simpa [eq_of_beq hfound] using hne
  | setStartTask id =>
    simp only [GraphBuilder.call, GraphBuilder.setStartTask, BuilderCall.added, List.not_mem_nil, or_false]
    split <;> rfl
  | addEdge source target => simp [GraphBuilder.call, GraphBuilder.addEdge, BuilderCall.added]
  | addConditionalEdge source condition yes no =>
    simp [GraphBuilder.call, GraphBuilder.addConditionalEdge, BuilderCall.added]
  | withTaskTimeout timeout => simp [GraphBuilder.call, GraphBuilder.withTaskTimeout, BuilderCall.added]

theorem edges_call (builder : GraphBuilder C) (call : BuilderCall C) : (builder.call call).build.edges.map Edge.target =
    builder.build.edges.map Edge.target ++ call.targets := by
  cases call with
  | setStartTask id =>
    simp only [GraphBuilder.call, GraphBuilder.setStartTask]
    split <;> simp [GraphBuilder.build, BuilderCall.targets]
  | addTask task => simp [GraphBuilder.call, GraphBuilder.build, GraphBuilder.addTask, BuilderCall.targets]
  | addEdge source target => simp [GraphBuilder.call, GraphBuilder.build, GraphBuilder.addEdge, BuilderCall.targets]
  | addConditionalEdge source condition yes no =>
    simp [GraphBuilder.call, GraphBuilder.build, GraphBuilder.addConditionalEdge, BuilderCall.targets]
  | withTaskTimeout timeout =>
    simp [GraphBuilder.call, GraphBuilder.build, GraphBuilder.withTaskTimeout, BuilderCall.targets]

/-- The tasks of the graph are those added, and its edges lead where the calls say. -/
theorem built_eq (id : String) (calls : List (BuilderCall C)) :
    (∀ taskId, (built id calls).HasTask taskId ↔ taskId ∈ calls.flatMap BuilderCall.added) ∧
    (built id calls).edges.map Edge.target = calls.flatMap BuilderCall.targets := by
  have hfold (builder : GraphBuilder C) :
      (∀ taskId, (calls.foldl GraphBuilder.call builder).build.HasTask taskId ↔
        builder.build.HasTask taskId ∨ taskId ∈ calls.flatMap BuilderCall.added) ∧
      (calls.foldl GraphBuilder.call builder).build.edges.map Edge.target =
        builder.build.edges.map Edge.target ++ calls.flatMap BuilderCall.targets := by
    induction calls generalizing builder with
    | nil => simp
    | cons call calls ih =>
      obtain ⟨htasks, hedges⟩ := ih (builder.call call)
      refine ⟨fun taskId => ?_, ?_⟩
      · rw [List.foldl_cons, htasks, hasTask_call, List.flatMap_cons, List.mem_append, or_assoc]
      · rw [List.foldl_cons, hedges, edges_call, List.flatMap_cons, List.append_assoc]
  obtain ⟨htasks, hedges⟩ := hfold (.new id)
  refine ⟨fun taskId => (htasks taskId).trans ?_, hedges⟩
  simp [HasTask, GraphBuilder.build, GraphBuilder.get, GraphBuilder.new]

/-- A builder whose edges all lead to tasks that were added, before or after, builds such a graph. -/
theorem built_leadsToTasks {id : String} {calls : List (BuilderCall C)}
    (h : ∀ target ∈ calls.flatMap BuilderCall.targets, target ∈ calls.flatMap BuilderCall.added) :
    (built id calls).LeadsToTasks := by
  obtain ⟨htasks, hedges⟩ := built_eq id calls
  refine leadsToTasks_of_edges fun edge hedge => ?_
  rw [htasks]
  apply h
  rw [← hedges]
  exact List.mem_map_of_mem hedge

/-- One task leaves the session at a task of the graph, and a task that it does not find is not there. -/
theorem LeadsToTasks.executeTask (h : graph.LeadsToTasks) (hsession : graph.HasTask session.currentTaskId)
    {result : Option (Except GraphError ExecutionResult)} {left : Session C}
    (hstep : graph.executeTask session = (result, left)) :
    graph.HasTask left.currentTaskId ∧ ∀ id, result = some (.error (.taskNotFound id)) → ¬ graph.HasTask id := by
  obtain ⟨task, htask⟩ := Option.isSome_iff_exists.1 hsession
  simp only [Graph.executeTask, htask] at hstep
  rcases hrun : task session.context with ⟨outcome, context⟩
  cases outcome with
  | error failure =>
    simp only [hrun, Prod.mk.injEq] at hstep
    obtain ⟨rfl, rfl⟩ := hstep
    exact ⟨hsession, by simp⟩
  | ok r =>
    simp only [hrun, afterTask] at hstep
    cases haction : r.nextAction with
    | «continue» | continueAndExecute =>
      simp only [haction] at hstep
      cases hedge : graph.findNextTask session.currentTaskId context with
      | none =>
        simp only [hedge, Prod.mk.injEq] at hstep
        obtain ⟨rfl, rfl⟩ := hstep
        exact ⟨hsession, by simp⟩
      | some next =>
        simp only [hedge, Prod.mk.injEq] at hstep
        obtain ⟨rfl, rfl⟩ := hstep
        exact ⟨h _ _ _ _ _ _ htask hrun (by simp [haction]) hedge, by simp⟩
    | goTo target =>
      simp only [haction] at hstep
      split at hstep
      · next htarget =>
        cases hstep
        exact ⟨htarget, by simp⟩
      · next htarget =>
        cases hstep
        refine ⟨hsession, fun id hid => ?_⟩
        cases hid
        exact htarget
    | goBack | «end» | waitForInput =>
      simp only [haction, Prod.mk.injEq] at hstep
      obtain ⟨rfl, rfl⟩ := hstep
      exact ⟨hsession, by simp⟩

/-- So does a call, whatever the tasks return. -/
theorem LeadsToTasks.returns (h : graph.LeadsToTasks) (hsession : graph.HasTask session.currentTaskId)
    (hrun : graph.Returns session run) :
    graph.HasTask run.session.currentTaskId ∧ ∀ id, run.result = .error (.taskNotFound id) → ¬ graph.HasTask id := by
  obtain ⟨fuel, hfuel⟩ := hrun
  induction fuel generalizing session run with
  | zero => cases hfuel
  | succ fuel ih =>
    rw [runSession] at hfuel
    rcases hstep : graph.executeTask session with ⟨_ | result, left⟩
    · simp only [hstep, Option.map_eq_some_iff] at hfuel
      obtain ⟨rest, hrest, rfl⟩ := hfuel
      exact @ih left rest (h.executeTask hsession hstep).1 hrest
    · simp only [hstep, Option.some.injEq] at hfuel
      subst hfuel
      obtain ⟨hleft, hmissing⟩ := h.executeTask hsession hstep
      exact ⟨hleft, fun id hid => hmissing id (congrArg some hid)⟩

/-- In all runs the session points at a task of the graph, and no call fails because that task is missing, exactly
when the graph's tasks are led to tasks. The builder checks no edge. -/
theorem sessions_point_at_tasks_iff (id : String) (calls : List (BuilderCall C)) :
    (∀ session, (sessions (built id calls)).Reachable session → (built id calls).HasTask session.currentTaskId ∧
      ∀ run, (built id calls).Returns session run → run.result ≠ .error (.taskNotFound session.currentTaskId)) ↔
    (built id calls).LeadsToTasks := by
  generalize built id calls = graph
  constructor
  · intro hall taskId task context result left next htask hrun haction hnext
    refine Decidable.byContradiction fun hmissing => ?_
    let start : Session C := ⟨"", "", taskId, none, context⟩
    have hstart : (sessions graph).Reachable start := .init (Option.isSome_iff_exists.2 ⟨task, htask⟩)
    -- the call ends at the missing task, at once or with the failure to find it
    have hend : ∃ run, graph.Returns start run ∧ run.session.currentTaskId = next := by
      rcases haction with haction | haction
      · have hstep : graph.executeTask start = (some (.ok (pausedAt result.response next
            "Task completed, continuing to next task")), ⟨"", "", next, result.statusMessage, left⟩) := by
          simp [executeTask, afterTask, start, htask, hrun, haction, hnext]
        exact ⟨_, .of_executeTask hstep, rfl⟩
      · have hstep : graph.executeTask start = (none, ⟨"", "", next, result.statusMessage, left⟩) := by
          simp [executeTask, afterTask, start, htask, hrun, haction, hnext]
        have hnone : graph.tasks next = none := by simpa [HasTask] using hmissing
        have hfail : graph.executeTask ⟨"", "", next, result.statusMessage, left⟩ =
            (some (.error (.taskNotFound next)), ⟨"", "", next, result.statusMessage, left⟩) := by
          simp [executeTask, hnone]
        exact ⟨_, .after_executeTask hstep (.of_executeTask hfail), rfl⟩
    obtain ⟨run, hreturns, rfl⟩ := hend
    exact hmissing (hall run.session (hstart.step ⟨hreturns, rfl⟩ trivial)).1
  · intro h session hreach
    have hsession : graph.HasTask session.currentTaskId := by
      refine hreach.invariant (P := fun s => graph.HasTask s.currentTaskId) (fun s hs => hs) ?_
      rintro s run s' - hs ⟨hrun, rfl⟩ -
      exact (h.returns hs hrun).1
    exact ⟨hsession, fun run hrun hresult => (h.returns hsession hrun).2 _ hresult hsession⟩

/-- An article whose last edge leads to a task that was never added. -/
def article : List (BuilderCall Unit) :=
  [.addTask ⟨"draft", fun _ => (.ok ⟨none, .continue, none⟩, ())⟩,
    .addEdge "draft" "publish"]

theorem article_leaves_its_graph : ∃ session run run',
    (built "article" article).HasTask session.currentTaskId ∧
    (built "article" article).Returns session run ∧ (∃ result, run.result = .ok result) ∧
    ¬ (built "article" article).HasTask run.session.currentTaskId ∧
    (built "article" article).Returns run.session run' ∧
    run'.result = .error (.taskNotFound run.session.currentTaskId) :=
  ⟨⟨"session", "article", "draft", none, ()⟩,
    ⟨["draft"], .ok (pausedAt none "publish" "Task completed, continuing to next task"),
      ⟨"session", "article", "publish", none, ()⟩⟩,
    ⟨["publish"], .error (.taskNotFound "publish"), ⟨"session", "article", "publish", none, ()⟩⟩,
    by decide, ⟨1, rfl⟩, ⟨_, rfl⟩, by decide, ⟨1, rfl⟩, rfl⟩

end Graph
end Fusions.Ai
