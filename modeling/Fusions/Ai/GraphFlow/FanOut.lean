import Fusions.Library.Processes
import Fusions.Library.Runs
import Fusions.Ai.GraphFlow.Context
import Fusions.Ai.GraphFlow.Graph

/-! `FanOutTask::run`: children that run in parallel on the shared context and are joined as they finish. -/
namespace Fusions.Ai
open Fusions.Library Fusions.Hetuflow

/-- What joining a child gives: its result, its error's text, or the text of the join error. -/
inductive ChildOutcome where
  | ok (result : TaskResult)
  | failed (error : String)
  | panicked (message : String)
  deriving DecidableEq, Repr

/-- A child task, as the accesses that it makes to the context. -/
structure Child where
  id : String
  run : Process String (Option Json) ChildOutcome

structure FanOutTask where
  id : String
  children : List Child
  keyPrefix : Option String
  nextAction : NextAction

/-- The `Debug` text of an action; `quote` is that of a string. -/
def NextAction.debug (quote : String → String) : NextAction → String
  | .continue => "Continue"
  | .continueAndExecute => "ContinueAndExecute"
  | .goTo target => s!"GoTo({quote target})"
  | .goBack => "GoBack"
  | .end => "End"
  | .waitForInput => "WaitForInput"

/-- `run` under way: the context's data, the children that are not joined yet with what is left of them, the
results that were joined, the writes of the last of them that the loop has still to make, and its variables. -/
structure FanOutRun where
  data : ContextData
  running : List (Child × Process String (Option Json) ChildOutcome)
  joined : List (Child × ChildOutcome)
  writes : List (String × Option Json)
  hadError : Option String
  completed : Nat

/-- A child goes on, the loop joins one that has finished, or makes the next write for the one it joined. -/
inductive FanOutAction where
  | runs (index : Nat)
  | joins (index : Nat)
  | writes
  deriving DecidableEq, Repr

namespace FanOutTask
variable (quote : String → String) (task : FanOutTask)

def key (childId field : String) : String :=
  match task.keyPrefix with
  | some p => s!"{p}.{childId}.{field}"
  | none => s!"fanout.{childId}.{field}"

/-- What the loop stores for a child that returned Ok. -/
def outputs (childId : String) (result : TaskResult) : List (String × Option Json) :=
  (result.response.map fun response => (task.key childId "response", some (Json.str response))).toList ++
  (result.statusMessage.map fun status => (task.key childId "status", some (Json.str status))).toList ++
  [(task.key childId "next_action", some (Json.str (result.nextAction.debug quote)))]

def spawned (start : ContextData) : FanOutRun :=
  ⟨start, task.children.map fun child => (child, child.run), [], [], none, 0⟩

def join (child : Child) (outcome : ChildOutcome) (run : FanOutRun) : FanOutRun :=
  let run := { run with joined := run.joined ++ [(child, outcome)] }
  match outcome with
  | .panicked message => { run with hadError := some s!"FanOut child join error: {message}" }
  | .failed error => { run with hadError := some s!"FanOut child '{child.id}' failed: {error}" }
  | .ok result => { run with writes := task.outputs quote child.id result, completed := run.completed + 1 }

/-- The next state, if the step is possible. The loop joins when it has made its writes. -/
def next (run : FanOutRun) : FanOutAction → Option FanOutRun
  | .runs index => do
    let (child, rest) ← run.running[index]?
    let (rest, data) ← rest.step run.data
    some { run with data, running := run.running.set index (child, rest) }
  | .joins index =>
    match run.writes, run.running[index]? with
    | [], some (child, .done outcome) =>
      some (task.join quote child outcome { run with running := run.running.eraseIdx index })
    | _, _ => none
  | .writes =>
    match run.writes with
    | [] => none
    | write :: rest => some { run with data := Function.update run.data write.1 write.2, writes := rest }

/-- What `run` returns when all children are joined. -/
def result (run : FanOutRun) : Except GraphError TaskResult :=
  match run.hadError with
  | some message => .error (.taskExecutionFailed message)
  | none =>
    let summary := s!"FanOutTask '{task.id}' completed {run.completed} child task(s)"
    .ok ⟨some summary, task.nextAction, some summary⟩

/-- The runs of a fan-out, with the steps of its children and of its loop in any order. -/
def runs : System FanOutRun FanOutAction where
  init run := ∃ start, run = task.spawned start
  step run action run' := task.next quote run action = some run'

/-- A run from the given context that has joined all children and made all writes. -/
def Finished (start : ContextData) (run : FanOutRun) : Prop :=
  (task.runs quote).Run (task.spawned start) run ∧ run.running = [] ∧ run.writes = []

/-- The fields under which the loop stores what a child returned. -/
def fields : List String := ["response", "status", "next_action"]

/-- Children with ids of their own, whose runs read and write keys of their own that are no fan-out keys. -/
structure Separate (start : ContextData) : Prop where
  ids : (task.children.map Child.id).Nodup
  cells : task.children.Pairwise fun a b => ∀ cell ∈ a.run.cells start, cell ∉ b.run.cells start
  keys : ∀ a ∈ task.children, ∀ cell ∈ a.run.cells start, ∀ b ∈ task.children, ∀ field ∈ fields,
    cell ≠ task.key b.id field

/-- The keys of a child hold what it returned, and nothing where it returned nothing. -/
def Holds (data : ContextData) (childId : String) (result : TaskResult) : Prop :=
  data (task.key childId "response") = result.response.map Json.str ∧
  data (task.key childId "status") = result.statusMessage.map Json.str ∧
  data (task.key childId "next_action") = some (Json.str (result.nextAction.debug quote))

end FanOutTask

/-- The error that joining a child gives. -/
def ChildOutcome.error (childId : String) : ChildOutcome → Option String
  | .ok _ => none
  | .failed error => some s!"FanOut child '{childId}' failed: {error}"
  | .panicked message => some s!"FanOut child join error: {message}"

/-- What a child comes to alone. -/
def Child.outcome (child : Child) (start : ContextData) : ChildOutcome := (child.run.run start).1

namespace FanOutTask
variable (quote : String → String) (task : FanOutTask)

/-- No two children fail with different errors. -/
def ErrorsAgree (start : ContextData) : Prop := ∀ a ∈ task.children, ∀ b ∈ task.children, ∀ error error',
  (a.outcome start).error a.id = some error → (b.outcome start).error b.id = some error' → error = error'

/-- If all children return Ok, the key of a response or status that one does not return was not there before. -/
def NothingStale (start : ContextData) : Prop := (∀ a ∈ task.children, (a.outcome start).error a.id = none) →
  ∀ a ∈ task.children, ∀ result, a.outcome start = .ok result →
    (result.response = none → start (task.key a.id "response") = none) ∧
    (result.statusMessage = none → start (task.key a.id "status") = none)

variable {quote : String → String} {task : FanOutTask} {run run' : FanOutRun} {start : ContextData}

/-- What each step does. -/
theorem next_cases {action : FanOutAction} (h : task.next quote run action = some run') :
    (∃ before child rest rest' data after, run.running = before ++ (child, rest) :: after ∧
      rest.step run.data = some (rest', data) ∧
      run' = { run with data, running := before ++ (child, rest') :: after }) ∨
    (∃ before child outcome after, run.running = before ++ (child, .done outcome) :: after ∧ run.writes = [] ∧
      run' = task.join quote child outcome { run with running := before ++ after }) ∨
    (∃ write rest, run.writes = write :: rest ∧
      run' = { run with data := Function.update run.data write.1 write.2, writes := rest }) := by
  have hsplit {index : Nat} {x : Child × Process String (Option Json) ChildOutcome}
      (hget : run.running[index]? = some x) : ∃ before after, run.running = before ++ x :: after ∧
        before.length = index := by
    obtain ⟨hlt, rfl⟩ := List.getElem?_eq_some_iff.1 hget
    refine ⟨run.running.take index, run.running.drop (index + 1), ?_, ?_⟩
    · rw [List.getElem_cons_drop, List.take_append_drop]
    · exact List.length_take_of_le (Nat.le_of_lt hlt)
  cases action with
  | runs index =>
    obtain ⟨⟨child, rest⟩, hget, h⟩ := Option.bind_eq_some_iff.1 h
    obtain ⟨⟨rest', data⟩, hstep, h⟩ := Option.bind_eq_some_iff.1 h
    cases h
    obtain ⟨before, after, hrunning, rfl⟩ := hsplit hget
    refine .inl ⟨before, child, rest, rest', data, after, hrunning, hstep, ?_⟩
    simp [hrunning]
  | joins index =>
    simp only [next] at h
    split at h
    · next child outcome hwrites hget =>
      cases h
      obtain ⟨before, after, hrunning, rfl⟩ := hsplit hget
      refine .inr (.inl ⟨before, child, outcome, after, hrunning, hwrites, ?_⟩)
      simp [hrunning, List.eraseIdx_append]
    · cases h
  | writes =>
    simp only [next] at h
    split at h
    · cases h
    · next write rest hwrites =>
      cases h
      exact .inr (.inr ⟨write, rest, hwrites, rfl⟩)

/-- What the loop has to write for a child that it joined. -/
def written (quote : String → String) (task : FanOutTask) (joined : Child × ChildOutcome) :
    List (String × Option Json) :=
  match joined.2 with
  | .ok result => task.outputs quote joined.1.id result
  | _ => []

theorem keys_outputs (childId : String) (result : TaskResult) :
    ∀ write ∈ task.outputs quote childId result, ∃ field ∈ fields, write.1 = task.key childId field := by
  intro write hwrite
  simp only [outputs, List.mem_append, Option.mem_toList, Option.map_eq_some_iff, List.mem_singleton] at hwrite
  rcases hwrite with (⟨response, -, rfl⟩ | ⟨status, -, rfl⟩) | rfl
  · exact ⟨"response", by simp [fields], rfl⟩
  · exact ⟨"status", by simp [fields], rfl⟩
  · exact ⟨"next_action", by simp [fields], rfl⟩

theorem keys_written {joined : Child × ChildOutcome} :
    ∀ write ∈ written quote task joined, ∃ field ∈ fields, write.1 = task.key joined.1.id field := by
  obtain ⟨child, outcome⟩ := joined
  cases outcome with
  | ok result => exact keys_outputs child.id result
  | failed error => simp [written]
  | panicked message => simp [written]

theorem append_dot_inj {a b field field' : List Char} (h : '.' ∉ field) (h' : '.' ∉ field')
    (heq : a ++ '.' :: field = b ++ '.' :: field') : a = b ∧ field = field' := by
  rcases List.append_eq_append_iff.1 heq with ⟨mid, rfl, hmid⟩ | ⟨mid, rfl, hmid⟩
  · cases mid with
    | nil => simpa using hmid
    | cons c mid =>
      obtain ⟨-, rfl⟩ := List.cons.inj hmid
      exact absurd (by simp) h
  · cases mid with
    | nil => simpa [eq_comm] using hmid
    | cons c mid =>
      obtain ⟨-, rfl⟩ := List.cons.inj hmid
      exact absurd (by simp) h'

/-- A key tells the child and the field, whatever dots the prefix and the ids have. -/
theorem key_inj {a b field field' : String} (h : field ∈ fields) (h' : field' ∈ fields)
    (heq : task.key a field = task.key b field') : a = b ∧ field = field' := by
  have hdot : ∀ f ∈ fields, '.' ∉ f.toList := by decide
  have hlists : a.toList ++ '.' :: field.toList = b.toList ++ '.' :: field'.toList := by
    have hkey (childId f : String) :
        task.key childId f = task.keyPrefix.getD "fanout" ++ "." ++ childId ++ "." ++ f := by
      cases hprefix : task.keyPrefix <;> simp only [key, hprefix] <;> rfl
    simpa [hkey, ← String.toList_inj] using heq
  obtain ⟨hchild, hfield⟩ := append_dot_inj (hdot field h) (hdot field' h') hlists
  exact ⟨String.toList_inj.1 hchild, String.toList_inj.1 hfield⟩

/-- Between the steps: every child is on its way to what it comes to alone, and the keys that no child uses have
what the loop has written for the children it joined, but for the writes it has still to make. -/
structure Underway (quote : String → String) (task : FanOutTask) (start : ContextData) (run : FanOutRun) : Prop where
  children : (run.joined.map Prod.fst ++ run.running.map Prod.fst).Perm task.children
  running : ∀ r ∈ run.running, r.2.OnTrack run.data (r.1.run.cells start) (r.1.run.run start)
  joined : ∀ j ∈ run.joined, j.2 = j.1.outcome start ∧
    ∀ cell ∈ j.1.run.cells start, run.data cell = (j.1.run.run start).2 cell
  writes : ∀ write ∈ run.writes, ∃ child ∈ task.children, ∃ field ∈ fields, write.1 = task.key child.id field
  data : ∀ cell, (∀ child ∈ task.children, cell ∉ child.run.cells start) →
    assign run.data run.writes cell = assign start (run.joined.flatMap (written quote task)) cell
  hadError : run.hadError = run.joined.foldl (fun error j => (j.2.error j.1.id).or error) none
  completed : run.completed = run.joined.countP fun j => (j.2.error j.1.id).isNone

namespace Underway

theorem spawned (quote : String → String) (task : FanOutTask) (start : ContextData) :
    Underway quote task start (task.spawned start) where
  children := by simp [FanOutTask.spawned, Function.comp_def]
  running := by
    intro r hr
    obtain ⟨child, -, rfl⟩ := List.mem_map.1 hr
    exact .start child.run start
  joined := by simp [FanOutTask.spawned]
  writes := by simp [FanOutTask.spawned]
  data := by simp [FanOutTask.spawned]
  hadError := rfl
  completed := rfl

/-- The cells of one child are those of no other, whether that one is running or joined. -/
theorem others (h : Underway quote task start run) (hseparate : task.Separate start)
    {before after : List (Child × Process String (Option Json) ChildOutcome)} {child : Child}
    {rest : Process String (Option Json) ChildOutcome} (hrunning : run.running = before ++ (child, rest) :: after) :
    ∀ other ∈ run.joined.map Prod.fst ++ (before ++ after).map Prod.fst,
      ∀ cell ∈ child.run.cells start, cell ∉ other.run.cells start := by
  have hperm : (child :: (run.joined.map Prod.fst ++ (before ++ after).map Prod.fst)).Perm task.children := by
    refine List.Perm.trans ?_ h.children
    simp only [hrunning, List.map_append, List.map_cons, ← List.append_assoc]
    exact List.perm_middle.symm
  have hsymm : ∀ {a b : Child}, (∀ cell ∈ a.run.cells start, cell ∉ b.run.cells start) →
      ∀ cell ∈ b.run.cells start, cell ∉ a.run.cells start := fun hab cell hb ha => hab cell ha hb
  have hpairwise := (hperm.pairwise_iff hsymm).2 hseparate.cells
  exact (List.pairwise_cons.1 hpairwise).1

theorem runs (h : Underway quote task start run) (hseparate : task.Separate start)
    {before after : List (Child × Process String (Option Json) ChildOutcome)} {child : Child}
    {rest rest' : Process String (Option Json) ChildOutcome} {data : ContextData}
    (hrunning : run.running = before ++ (child, rest) :: after) (hstep : rest.step run.data = some (rest', data)) :
    Underway quote task start { run with data, running := before ++ (child, rest') :: after } := by
  have htrack := h.running (child, rest) (by simp [hrunning])
  have hchild : child ∈ task.children := h.children.subset (by simp [hrunning])
  have hframe : ∀ cell, cell ∉ child.run.cells start → data cell = run.data cell := fun cell hcell =>
    (Process.step_cells hstep).2 cell fun hmem => hcell (htrack.cells hmem)
  have hothers := h.others hseparate hrunning
  constructor
  case children => simpa [hrunning] using h.children
  case running =>
    intro r hr
    rcases List.mem_append.1 hr with hr | hr
    · have hcells := hothers r.1 (by simp [List.mem_map_of_mem hr])
      exact (h.running r (by simp [hrunning, hr])).frame fun cell hcell => hframe cell fun hmem => hcells cell hmem hcell
    · rcases List.mem_cons.1 hr with rfl | hr
      · exact htrack.step hstep
      · have hcells := hothers r.1 (by simp [List.mem_map_of_mem hr])
        exact (h.running r (by simp [hrunning, hr])).frame fun cell hcell =>
          hframe cell fun hmem => hcells cell hmem hcell
  case joined =>
    intro j hj
    have hcells := hothers j.1 (by simp [List.mem_map_of_mem hj])
    obtain ⟨houtcome, hfinal⟩ := h.joined j hj
    refine ⟨houtcome, fun cell hcell => ?_⟩
    exact (hframe cell fun hmem => hcells cell hmem hcell).trans (hfinal cell hcell)
  case writes => exact h.writes
  case data =>
    intro cell hcell
    rw [← h.data cell hcell]
    exact assign_congr (hframe cell (hcell child hchild))
  case hadError => exact h.hadError
  case completed => exact h.completed

theorem joins (h : Underway quote task start run)
    {before after : List (Child × Process String (Option Json) ChildOutcome)} {child : Child}
    {outcome : ChildOutcome} (hrunning : run.running = before ++ (child, .done outcome) :: after)
    (hwrites : run.writes = []) :
    Underway quote task start (task.join quote child outcome { run with running := before ++ after }) := by
  obtain ⟨houtcome, hfinal⟩ := (h.running (child, .done outcome) (by simp [hrunning])).of_done
  have hchild : child ∈ task.children := h.children.subset (by simp [hrunning])
  have hchildren : ((run.joined ++ [(child, outcome)]).map Prod.fst ++ (before ++ after).map Prod.fst).Perm
      task.children := by
    refine List.Perm.trans ?_ h.children
    simp only [hrunning, List.map_append, List.map_cons, List.map_nil, List.append_assoc, List.singleton_append]
    exact List.perm_middle.symm.append_left _
  have hjoined : ∀ j ∈ run.joined ++ [(child, outcome)], j.2 = j.1.outcome start ∧
      ∀ cell ∈ j.1.run.cells start, run.data cell = (j.1.run.run start).2 cell := by
    intro j hj
    rcases List.mem_append.1 hj with hj | hj
    · exact h.joined j hj
    · obtain rfl := List.mem_singleton.1 hj
      exact ⟨houtcome, hfinal⟩
  have hrest : ∀ r ∈ before ++ after, r.2.OnTrack run.data (r.1.run.cells start) (r.1.run.run start) := fun r hr =>
    h.running r (by rcases List.mem_append.1 hr with hr | hr <;> simp [hrunning, hr])
  have hdata : ∀ cell, (∀ child ∈ task.children, cell ∉ child.run.cells start) →
      assign run.data (written quote task (child, outcome)) cell =
        assign start ((run.joined ++ [(child, outcome)]).flatMap (written quote task)) cell := by
    intro cell hcell
    have hbefore := h.data cell hcell
    rw [hwrites, assign_nil] at hbefore
    rw [List.flatMap_append, List.flatMap_singleton, assign_append]
    exact assign_congr hbefore
  cases outcome with
  | ok result =>
    refine ⟨hchildren, hrest, hjoined, fun write hwrite => ⟨child, hchild, ?_⟩, hdata, ?_, ?_⟩
    · exact keys_outputs child.id result write hwrite
    · simp [join, List.foldl_append, ChildOutcome.error, h.hadError]
    · simp [join, List.countP_append, ChildOutcome.error, h.completed]
  | failed error | panicked message =>
    refine ⟨hchildren, hrest, hjoined, by simp [join, hwrites], ?_, ?_, ?_⟩
    · simpa [join, hwrites, written] using hdata
    · simp [join, List.foldl_append, ChildOutcome.error]
    · simp [join, List.countP_append, ChildOutcome.error, h.completed]

theorem write (h : Underway quote task start run) (hseparate : task.Separate start)
    {write : String × Option Json} {rest : List (String × Option Json)} (hwrites : run.writes = write :: rest) :
    Underway quote task start { run with data := Function.update run.data write.1 write.2, writes := rest } := by
  obtain ⟨child, hchild, field, hfield, hkey⟩ := h.writes write (by simp [hwrites])
  have hframe : ∀ a ∈ task.children, ∀ cell ∈ a.run.cells start,
      Function.update run.data write.1 write.2 cell = run.data cell := fun a ha cell hcell =>
    Function.update_of_ne (hkey ▸ hseparate.keys a ha cell hcell child hchild field hfield) _ _
  constructor
  case children => exact h.children
  case running =>
    intro r hr
    have hmem : r.1 ∈ task.children := h.children.subset (List.mem_append_right _ (List.mem_map_of_mem hr))
    exact (h.running r hr).frame (hframe r.1 hmem)
  case joined =>
    intro j hj
    have hmem : j.1 ∈ task.children := h.children.subset (List.mem_append_left _ (List.mem_map_of_mem hj))
    obtain ⟨houtcome, hfinal⟩ := h.joined j hj
    exact ⟨houtcome, fun cell hcell => (hframe j.1 hmem cell hcell).trans (hfinal cell hcell)⟩
  case writes => exact fun w hw => h.writes w (by simp [hwrites, hw])
  case data =>
    intro cell hcell
    rw [← h.data cell hcell, hwrites]
    rfl
  case hadError => exact h.hadError
  case completed => exact h.completed

theorem of_run (hseparate : task.Separate start) (h : (task.runs quote).Run (task.spawned start) run) :
    Underway quote task start run := by
  refine h.invariant (P := Underway quote task start) (.init ⟨start, rfl⟩) (.spawned quote task start) ?_
  intro r action r' _ hr hstep _
  obtain ⟨_, _, _, _, _, _, hrunning, hchild, rfl⟩ | ⟨_, _, _, _, hrunning, hwrites, rfl⟩ | ⟨_, _, hwrites, rfl⟩ :=
    next_cases hstep
  · exact hr.runs hseparate hrunning hchild
  · exact hr.joins hrunning hwrites
  · exact hr.write hseparate hwrites

end Underway

end FanOutTask
end Fusions.Ai
