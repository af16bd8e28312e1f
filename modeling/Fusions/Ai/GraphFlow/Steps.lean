import Fusions.Ai.GraphFlow.Graph

/-! `execute_session` with all that it leaves behind: the tasks it ran, its result and the session, which a
failing call changes too. Tasks that continue at once are a run of calls on the graph whose tasks do not. -/
namespace Fusions.Ai

/-- The tasks that a call of `execute_session` runs, in order, its result, and the session it leaves. -/
structure SessionRun (C : Type) where
  tasks : List String
  result : Except GraphError ExecutionResult
  session : Session C

/-- `Continue` in place of `ContinueAndExecute`. -/
def TaskResult.stepwise (result : TaskResult) : TaskResult :=
  { result with nextAction := if result.nextAction = .continueAndExecute then .continue else result.nextAction }

namespace Graph
variable {C : Type} (graph : Graph C)

/-- What `execute_session` does after a task on the session as the task left it: the result, or none where it
calls itself, and the session then. -/
def afterTask (result : TaskResult) (session : Session C) :
    Option (Except GraphError ExecutionResult) × Session C :=
  match result.nextAction with
  | .continue =>
    match graph.findNextTask session.currentTaskId session.context with
    | some next => (some (.ok (pausedAt result.response next "Task completed, continuing to next task")),
        { session with currentTaskId := next })
    | none => (some (.ok (pausedAt result.response session.currentTaskId
        "No outgoing edge found from current task")), session)
  | .continueAndExecute =>
    match graph.findNextTask session.currentTaskId session.context with
    | some next => (none, { session with currentTaskId := next })
    | none => (some (.ok (pausedAt result.response session.currentTaskId
        "No outgoing edge found from current task")), session)
  | .waitForInput | .goBack => (some (.ok ⟨result.response, .waitingForInput⟩), session)
  | .end => (some (.ok ⟨result.response, .completed⟩), session)
  | .goTo target =>
    if (graph.tasks target).isSome then
      (some (.ok (pausedAt result.response target "Task requested jump to specific task")),
        { session with currentTaskId := target })
    else (some (.error (.taskNotFound target)), session)

/-- The current task, and what comes after it. The tasks share the context, so that what a failing one
wrote there stays. -/
def executeTask (session : Session C) : Option (Except GraphError ExecutionResult) × Session C :=
  match graph.tasks session.currentTaskId with
  | none => (some (.error (.taskNotFound session.currentTaskId)), session)
  | some task =>
    match task session.context with
    | (.error failure, context) =>
      (some (.error (.taskExecutionFailed (failure.message session.currentTaskId))), { session with context := context })
    | (.ok result, context) =>
      graph.afterTask result { session with context := context, statusMessage := result.statusMessage }

/-- `execute_session`. The first argument bounds the tasks that continue at once; running out of it
stands for not returning. -/
def runSession : Nat → Session C → Option (SessionRun C)
  | 0, _ => none
  | fuel + 1, session =>
    match graph.executeTask session with
    | (some result, left) => some ⟨[session.currentTaskId], result, left⟩
    | (none, left) => (runSession fuel left).map fun run =>
        { run with tasks := session.currentTaskId :: run.tasks }

/-- A call of `execute_session` that returns. -/
def Returns (session : Session C) (run : SessionRun C) : Prop :=
  ∃ fuel, graph.runSession fuel session = some run

/-- Calls of `execute_session` one after the other, each on the session that the one before left. -/
inductive Calls : Session C → List (SessionRun C) → Prop where
  | nil {session : Session C} : Calls session []
  | cons {session : Session C} {run : SessionRun C} {calls : List (SessionRun C)} :
      graph.Returns session run → Calls run.session calls → Calls session (run :: calls)

/-- The graph whose tasks return `Continue` where they returned `ContinueAndExecute`. -/
def stepwise : Graph C where
  tasks taskId := (graph.tasks taskId).map fun task context =>
    ((task context).1.map TaskResult.stepwise, (task context).2)
  edges := graph.edges

variable {graph}
variable {session : Session C} {run run' : SessionRun C}

/-- What `execute_session` returns is the result and the session that the run leaves. -/
theorem executeSession_eq (fuel : Nat) (session : Session C) : graph.executeSession fuel session =
    (graph.runSession fuel session).map fun run => run.result.map fun result => (result, run.session) := by
  induction fuel generalizing session with
  | zero => rfl
  | succ fuel ih =>
    simp only [executeSession, executeSingleTask, runSession, executeTask]
    cases graph.tasks session.currentTaskId with
    | none => rfl
    | some task =>
      rcases htask : task session.context with ⟨outcome, context⟩
      cases outcome with
      | error failure => simp [htask, Except.map]
      | ok result =>
        simp only [htask, afterTask]
        cases result.nextAction with
        | «continue» => cases graph.findNextTask session.currentTaskId context <;> rfl
        | continueAndExecute =>
          cases graph.findNextTask session.currentTaskId context with
          | none => rfl
          | some next => simp [ih, Function.comp_def]
        | goTo target => by_cases htarget : (graph.tasks target).isSome <;> simp [htarget, Except.map]
        | goBack => rfl
        | «end» => rfl
        | waitForInput => rfl

/-- `execute_session` calls itself after a task that continues at once and has an edge to follow. -/
theorem afterTask_of_none {result : TaskResult} {left : Session C} (h : graph.afterTask result session = (none, left)) :
    result.nextAction = .continueAndExecute ∧ ∃ next,
      graph.findNextTask session.currentTaskId session.context = some next ∧
      left = { session with currentTaskId := next } := by
  unfold afterTask at h
  cases haction : result.nextAction with
  | continueAndExecute =>
    simp only [haction] at h
    cases hnext : graph.findNextTask session.currentTaskId session.context with
    | none => simp [hnext] at h
    | some next =>
      simp only [hnext, Prod.mk.injEq, true_and] at h
      exact ⟨rfl, next, rfl, h.symm⟩
  | «continue» =>
    cases hnext : graph.findNextTask session.currentTaskId session.context <;> simp [haction, hnext] at h
  | goTo target => by_cases htarget : (graph.tasks target).isSome <;> simp [haction, htarget] at h
  | goBack | «end» | waitForInput => simp [haction] at h

theorem afterTask_of_some {result : TaskResult} {outcome : Except GraphError ExecutionResult} {left : Session C}
    (h : graph.afterTask result session = (some outcome, left)) : left.context = session.context ∧
      (result.nextAction = .continueAndExecute → graph.findNextTask session.currentTaskId session.context = none) := by
  unfold afterTask at h
  cases haction : result.nextAction with
  | continueAndExecute | «continue» =>
    cases hnext : graph.findNextTask session.currentTaskId session.context <;>
      simp only [haction, hnext, Prod.mk.injEq, Option.some.injEq, reduceCtorEq, false_and] at h <;>
      obtain ⟨-, rfl⟩ := h <;> simp
  | goTo target =>
    by_cases htarget : (graph.tasks target).isSome <;> simp only [haction, htarget] at h <;> cases h <;> simp
  | goBack | «end» | waitForInput =>
    simp only [haction] at h
    cases h
    simp

@[simp] theorem context_afterTask (result : TaskResult) (session : Session C) :
    (graph.afterTask result session).2.context = session.context := by
  rcases h : graph.afterTask result session with ⟨_ | outcome, left⟩
  · obtain ⟨-, next, -, rfl⟩ := afterTask_of_none h
    rfl
  · exact (afterTask_of_some h).1

theorem tasks_stepwise (taskId : String) : graph.stepwise.tasks taskId = (graph.tasks taskId).map fun task context =>
    ((task context).1.map TaskResult.stepwise, (task context).2) := rfl

@[simp] theorem findNextTask_stepwise (current : String) (context : C) :
    graph.stepwise.findNextTask current context = graph.findNextTask current context := rfl

/-- A task that does not continue at once leaves the same on both graphs. -/
theorem executeTask_stepwise_of_some {result : Except GraphError ExecutionResult} {left : Session C}
    (h : graph.executeTask session = (some result, left)) :
    graph.stepwise.executeTask session = (some result, left) := by
  simp only [executeTask, tasks_stepwise] at h ⊢
  cases htask : graph.tasks session.currentTaskId with
  | none => simpa [htask] using h
  | some task =>
    simp only [htask, Option.map_some] at h ⊢
    rcases hrun : task session.context with ⟨outcome, context⟩
    cases outcome with
    | error failure => simpa [hrun, Except.map] using h
    | ok r =>
      simp only [hrun, Except.map, afterTask, TaskResult.stepwise] at h ⊢
      cases haction : r.nextAction with
      | continueAndExecute =>
        cases hnext : graph.findNextTask session.currentTaskId context with
        | none => simpa [haction, hnext] using h
        | some next => simp [haction, hnext] at h
      | «continue» | goTo target | goBack | «end» | waitForInput => simpa [haction, tasks_stepwise] using h

/-- A task that continues at once is a call of its own on the stepwise graph, and that call pauses where
the next task starts. -/
theorem executeTask_stepwise_of_none {left : Session C} (h : graph.executeTask session = (none, left)) :
    ∃ result, graph.stepwise.executeTask session = (some (.ok result), left) := by
  simp only [executeTask, tasks_stepwise] at h ⊢
  cases htask : graph.tasks session.currentTaskId with
  | none => simp [htask] at h
  | some task =>
    simp only [htask, Option.map_some] at h ⊢
    rcases hrun : task session.context with ⟨outcome, context⟩
    cases outcome with
    | error failure => simp [hrun] at h
    | ok r =>
      simp only [hrun, Except.map, afterTask, TaskResult.stepwise] at h ⊢
      cases haction : r.nextAction with
      | continueAndExecute =>
        cases hnext : graph.findNextTask session.currentTaskId context with
        | none => simp [haction, hnext] at h
        | some next => simpa [haction, hnext] using h
      | «continue» => cases hnext : graph.findNextTask session.currentTaskId context <;> simp [haction, hnext] at h
      | goTo target => by_cases htarget : (graph.tasks target).isSome <;> simp [haction, htarget] at h
      | goBack | «end» | waitForInput => simp [haction] at h

theorem runSession_succ {fuel : Nat} (h : graph.runSession fuel session = some run) :
    graph.runSession (fuel + 1) session = some run := by
  induction fuel generalizing session run with
  | zero => cases h
  | succ fuel ih =>
    rw [runSession] at h ⊢
    rcases htask : graph.executeTask session with ⟨_ | result, left⟩
    · simp only [htask, Option.map_eq_some_iff] at h ⊢
      obtain ⟨rest, hrest, hrun⟩ := h
      exact ⟨rest, ih hrest, hrun⟩
    · simpa [htask] using h

theorem Returns.unique (h : graph.Returns session run) (h' : graph.Returns session run') : run = run' := by
  obtain ⟨fuel, hfuel⟩ := h
  obtain ⟨fuel', hfuel'⟩ := h'
  have hmono {n : Nat} {r : SessionRun C} (k : Nat) (hr : graph.runSession n session = some r) :
      graph.runSession (n + k) session = some r := by
    induction k with
    | zero => exact hr
    | succ k ih => exact runSession_succ ih
  have hleft := hmono fuel' hfuel
  have hright := hmono fuel hfuel'
  rw [Nat.add_comm] at hright
  exact Option.some.inj (hleft.symm.trans hright)

theorem Calls.unique {calls calls' : List (SessionRun C)} (h : graph.Calls session calls)
    (h' : graph.Calls session calls') (hlength : calls.length = calls'.length) : calls = calls' := by
  induction h generalizing calls' with
  | nil => exact (List.length_eq_zero_iff.1 hlength.symm).symm
  | cons hrun _ ih =>
    cases h' with
    | nil => cases hlength
    | cons hrun' hrest' =>
      obtain rfl := hrun.unique hrun'
      rw [ih hrest' (Nat.succ.inj hlength)]

theorem Returns.of_executeTask {result : Except GraphError ExecutionResult} {left : Session C}
    (h : graph.executeTask session = (some result, left)) :
    graph.Returns session ⟨[session.currentTaskId], result, left⟩ :=
  ⟨1, by simp [runSession, h]⟩

theorem Returns.after_executeTask {left : Session C} (h : graph.executeTask session = (none, left))
    (hrun : graph.Returns left run) :
    graph.Returns session { run with tasks := session.currentTaskId :: run.tasks } := by
  obtain ⟨fuel, hfuel⟩ := hrun
  exact ⟨fuel + 1, by simp [runSession, h, hfuel]⟩

/-- A call that runs n tasks is n calls on the graph whose tasks do not continue at once: they run the same
tasks one by one, all but the last one return Ok, and the last one returns what the call returns, an error too,
and leaves the session that it leaves. -/
theorem returns_in_steps (h : graph.Returns session run) : ∃ earlier last,
    graph.stepwise.Calls session (earlier ++ [last]) ∧
    (∀ calls, graph.stepwise.Calls session calls → calls.length = run.tasks.length → calls = earlier ++ [last]) ∧
    (earlier ++ [last]).map SessionRun.tasks = run.tasks.map ([·]) ∧
    (∀ call ∈ earlier, ∃ result, call.result = .ok result) ∧
    last.result = run.result ∧ last.session = run.session := by
  suffices hsteps : ∃ earlier last, graph.stepwise.Calls session (earlier ++ [last]) ∧
      (earlier ++ [last]).map SessionRun.tasks = run.tasks.map ([·]) ∧
      (∀ call ∈ earlier, ∃ result, call.result = .ok result) ∧
      last.result = run.result ∧ last.session = run.session by
    obtain ⟨earlier, last, hcalls, htasks, hrest⟩ := hsteps
    refine ⟨earlier, last, hcalls, fun calls hcalls' hlength => hcalls'.unique hcalls ?_, htasks, hrest⟩
    rw [hlength, ← List.length_map SessionRun.tasks, htasks, List.length_map]
  obtain ⟨fuel, hfuel⟩ := h
  induction fuel generalizing session run with
  | zero => cases hfuel
  | succ fuel ih =>
    rw [runSession] at hfuel
    rcases htask : graph.executeTask session with ⟨_ | result, left⟩
    · -- the task continues at once: it is the first of the calls, and the rest is the induction's
      simp only [htask, Option.map_eq_some_iff] at hfuel
      obtain ⟨rest, hrest, rfl⟩ := hfuel
      obtain ⟨result, hstep⟩ := executeTask_stepwise_of_none htask
      obtain ⟨earlier, last, hcalls, htasks, hok, hlast⟩ := ih hrest
      refine ⟨⟨[session.currentTaskId], .ok result, left⟩ :: earlier, last, ?_, ?_, ?_, hlast⟩
      · exact .cons (.of_executeTask hstep) hcalls
      · simpa using htasks
      · exact List.forall_mem_cons.2 ⟨⟨result, rfl⟩, hok⟩
    · simp only [htask, Option.some.injEq] at hfuel
      subst hfuel
      have hstep := executeTask_stepwise_of_some htask
      refine ⟨[], ⟨[session.currentTaskId], result, left⟩, ?_, rfl, by simp, rfl, rfl⟩
      exact .cons (.of_executeTask hstep) .nil

/-- A document that is fetched and checked at once, and cannot be published. -/
def publishing : Graph (List String) where
  tasks taskId :=
    if taskId = "fetch" then some fun log => (.ok ⟨none, .continueAndExecute, some "fetched"⟩, log ++ ["fetched"])
    else if taskId = "check" then some fun log => (.ok ⟨none, .continueAndExecute, some "checked"⟩, log ++ ["checked"])
    else if taskId = "publish" then some fun log => (.error (.failed "offline"), log ++ ["publishing"])
    else none
  edges := [⟨"fetch", "archive", some fun log => log.contains "stale"⟩, ⟨"fetch", "check", none⟩,
    ⟨"check", "publish", none⟩]

def fetching : Session (List String) := ⟨"session", "publishing", "fetch", none, []⟩

theorem returns_in_steps_publishing : ∃ earlier last, publishing.stepwise.Calls fetching (earlier ++ [last]) ∧
    (earlier ++ [last]).map SessionRun.tasks = [["fetch"], ["check"], ["publish"]] ∧
    last.result = .error (.taskExecutionFailed ((TaskFailure.failed "offline").message "publish")) ∧
    last.session = ⟨"session", "publishing", "publish", some "checked", ["fetched", "checked", "publishing"]⟩ := by
  have hrun : publishing.Returns fetching ⟨["fetch", "check", "publish"],
      .error (.taskExecutionFailed ((TaskFailure.failed "offline").message "publish")),
      ⟨"session", "publishing", "publish", some "checked", ["fetched", "checked", "publishing"]⟩⟩ := ⟨3, rfl⟩
  obtain ⟨earlier, last, hcalls, -, htasks, -, hresult, hsession⟩ := returns_in_steps hrun
  exact ⟨earlier, last, hcalls, htasks, hresult, hsession⟩

end Graph
end Fusions.Ai
