import Mathlib.Init

/-! Graphs of tasks, and the step that `execute_session` takes on a session. -/
namespace Fusions.Ai

/-- A session. `C` is its context, whatever the tasks keep there. -/
structure Session (C : Type) where
  id : String
  graphId : String
  currentTaskId : String
  statusMessage : Option String
  context : C
  deriving DecidableEq

inductive GraphError where
  | taskExecutionFailed (message : String)
  | taskNotFound (id : String)
  | storageError (message : String)
  | sessionNotFound (id : String)
  deriving DecidableEq, Repr

inductive NextAction where
  | continue
  | continueAndExecute
  | goTo (target : String)
  | goBack
  | end
  | waitForInput
  deriving DecidableEq, Repr

structure TaskResult where
  response : Option String
  nextAction : NextAction
  statusMessage : Option String
  deriving DecidableEq, Repr

inductive ExecutionStatus where
  | paused (nextTaskId reason : String)
  | waitingForInput
  | completed
  deriving DecidableEq, Repr

structure ExecutionResult where
  response : Option String
  status : ExecutionStatus
  deriving DecidableEq, Repr

structure Edge (C : Type) where
  source : String
  target : String
  condition : Option (C → Bool)

/-- How a task fails: with its own error, or at the graph's timeout. -/
inductive TaskFailure where
  | failed (error : String)
  | timedOut (limit : String)
  deriving DecidableEq, Repr

def TaskFailure.message (taskId : String) : TaskFailure → String
  | .failed error => s!"Task '{taskId}' failed: {error}"
  | .timedOut limit => s!"Task '{taskId}' timed out after {limit}"

/-- A graph. A task runs on the shared context and leaves it changed. -/
structure Graph (C : Type) where
  tasks : String → Option (C → Except TaskFailure TaskResult × C)
  edges : List (Edge C)

namespace Graph
variable {C : Type} (graph : Graph C)

/-- The first edge whose condition holds, else the first one without a condition. -/
def findNextTask (current : String) (context : C) : Option String :=
  let edges := graph.edges.filter (·.source == current)
  ((edges.find? fun e => e.condition.any (· context)).or (edges.find? (·.condition.isNone))).map Edge.target

def executeSingleTask (taskId : String) (context : C) : Except GraphError (TaskResult × C) :=
  match graph.tasks taskId with
  | none => .error (.taskNotFound taskId)
  | some task =>
    match task context with
    | (.ok result, context) => .ok (result, context)
    | (.error failure, _) => .error (.taskExecutionFailed (failure.message taskId))

/-- The result of a task without an outgoing edge, and of one that goes on at another. -/
def pausedAt (response : Option String) (taskId reason : String) : ExecutionResult :=
  ⟨response, .paused taskId reason⟩

/-- `execute_session`. The first argument bounds the tasks that continue at once; running out of it
stands for not returning. -/
def executeSession : Nat → Session C → Option (Except GraphError (ExecutionResult × Session C))
  | 0, _ => none
  | fuel + 1, session =>
    match graph.executeSingleTask session.currentTaskId session.context with
    | .error e => some (.error e)
    | .ok (result, context) =>
      let session := { session with context := context, statusMessage := result.statusMessage }
      match result.nextAction with
      | .continue =>
        match graph.findNextTask session.currentTaskId context with
        | some next => some (.ok (pausedAt result.response next "Task completed, continuing to next task",
            { session with currentTaskId := next }))
        | none => some (.ok (pausedAt result.response session.currentTaskId
            "No outgoing edge found from current task", session))
      | .continueAndExecute =>
        match graph.findNextTask session.currentTaskId context with
        | some next => executeSession fuel { session with currentTaskId := next }
        | none => some (.ok (pausedAt result.response session.currentTaskId
            "No outgoing edge found from current task", session))
      | .waitForInput | .goBack => some (.ok (⟨result.response, .waitingForInput⟩, session))
      | .end => some (.ok (⟨result.response, .completed⟩, session))
      | .goTo target =>
        if (graph.tasks target).isSome then
          some (.ok (pausedAt result.response target "Task requested jump to specific task",
            { session with currentTaskId := target }))
        else some (.error (.taskNotFound target))

variable {graph}

/-- A step moves the session along its graph; it stays the same session. -/
theorem executeSession_id {fuel : Nat} {session session' : Session C} {result : ExecutionResult}
    (h : graph.executeSession fuel session = some (.ok (result, session'))) :
    session'.id = session.id ∧ session'.graphId = session.graphId := by
  induction fuel generalizing session with
  | zero => cases h
  | succ fuel ih =>
    unfold executeSession at h
    split at h
    · cases h
    · dsimp only at h
      split at h
      · split at h <;> cases h <;> exact ⟨rfl, rfl⟩
      · split at h
        · have hrest := ih h
          exact hrest
        · cases h
          exact ⟨rfl, rfl⟩
      · cases h
        exact ⟨rfl, rfl⟩
      · cases h
        exact ⟨rfl, rfl⟩
      · cases h
        exact ⟨rfl, rfl⟩
      · split at h <;> cases h
        exact ⟨rfl, rfl⟩

end Graph
end Fusions.Ai
