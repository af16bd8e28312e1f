import Mathlib.Data.List.Induction
import Fusions.Ai.GraphFlow.FanOut

/-! The orders in which the children of a fan-out finish: each of them occurs, and what the order decides. -/
namespace Fusions.Ai
open Fusions.Library Fusions.Hetuflow

namespace FanOutTask
variable {quote : String → String} {task : FanOutTask} {run run' : FanOutRun} {start : ContextData}

/-- What a child's result has for a field. -/
def output (quote : String → String) (result : TaskResult) (field : String) : Option Json :=
  if field = "response" then result.response.map Json.str
  else if field = "status" then result.statusMessage.map Json.str
  else some (Json.str (result.nextAction.debug quote))

theorem key_eq_iff {a b field field' : String} (h : field ∈ fields) (h' : field' ∈ fields) :
    task.key a field = task.key b field' ↔ a = b ∧ field = field' := by
  refine ⟨key_inj h h', ?_⟩
  rintro ⟨rfl, rfl⟩
  rfl

theorem mem_outputs {childId field : String} {result : TaskResult} {value : Option Json} (hfield : field ∈ fields) :
    (task.key childId field, value) ∈ task.outputs quote childId result ↔
      ∃ j, output quote result field = some j ∧ value = some j := by
  have hkey {f : String} (hf : f ∈ fields) : task.key childId field = task.key childId f ↔ field = f := by
    simp [key_eq_iff hfield hf]
  have hresponse := hkey (f := "response") (by simp [fields])
  have hstatus := hkey (f := "status") (by simp [fields])
  have haction := hkey (f := "next_action") (by simp [fields])
  simp only [outputs, List.mem_append, Option.mem_toList, Option.map_eq_some_iff, List.mem_singleton, Prod.mk.injEq,
    eq_comm (a := task.key childId _) (b := task.key childId field), hresponse, hstatus, haction]
  simp only [fields, List.mem_cons, List.not_mem_nil, or_false] at hfield
  rcases hfield with rfl | rfl | rfl <;> simp [output, eq_comm]

theorem nodup_outputs (childId : String) (result : TaskResult) :
    ((task.outputs quote childId result).map Prod.fst).Nodup := by
  have hkey {f g : String} (hf : f ∈ fields) (hg : g ∈ fields) (hne : f ≠ g) : task.key childId f ≠ task.key childId g :=
    fun heq => hne (key_inj hf hg heq).2
  have hresponse : task.key childId "response" ≠ task.key childId "status" :=
    hkey (by simp [fields]) (by simp [fields]) (by decide)
  have hstatus : task.key childId "status" ≠ task.key childId "next_action" :=
    hkey (by simp [fields]) (by simp [fields]) (by decide)
  have haction : task.key childId "response" ≠ task.key childId "next_action" :=
    hkey (by simp [fields]) (by simp [fields]) (by decide)
  cases hr : result.response <;> cases hs : result.statusMessage <;>
    simp [outputs, hr, hs, hresponse, hstatus, haction]

/-- What all children come to. -/
def results (task : FanOutTask) (start : ContextData) : List (Child × ChildOutcome) :=
  task.children.map fun child => (child, child.outcome start)

theorem Separate.nodup (h : task.Separate start) :
    (((task.results start).flatMap (written quote task)).map Prod.fst).Nodup := by
  rw [List.map_flatMap, List.nodup_flatMap, results, List.pairwise_map]
  constructor
  · intro j _
    rcases j with ⟨child, result | error | message⟩
    · exact nodup_outputs child.id result
    · exact List.nodup_nil
    · exact List.nodup_nil
  · refine (List.pairwise_map.1 h.ids).imp fun {a b} hne => ?_
    intro cell ha hb
    obtain ⟨write, hwrite, rfl⟩ := List.mem_map.1 ha
    obtain ⟨write', hwrite', heq⟩ := List.mem_map.1 hb
    obtain ⟨field, hfield, hkey⟩ := keys_written write hwrite
    obtain ⟨field', hfield', hkey'⟩ := keys_written write' hwrite'
    rw [hkey, hkey'] at heq
    exact hne (key_inj hfield' hfield heq).1.symm

/-- The error that the loop keeps is that of the last child that failed. -/
def lastError (joined : List (Child × ChildOutcome)) : Option String :=
  joined.foldl (fun error j => (j.2.error j.1.id).or error) none

theorem lastError_append (joined : List (Child × ChildOutcome)) (j : Child × ChildOutcome) :
    lastError (joined ++ [j]) = (j.2.error j.1.id).or (lastError joined) := by
  simp [lastError]

theorem lastError_eq_none_iff {joined : List (Child × ChildOutcome)} :
    lastError joined = none ↔ ∀ j ∈ joined, j.2.error j.1.id = none := by
  induction joined using List.reverseRecOn with
  | nil => simp [lastError]
  | append_singleton joined j ih => simp [lastError_append, ih, or_imp, forall_and, and_comm]

theorem mem_of_lastError {joined : List (Child × ChildOutcome)} {error : String}
    (h : lastError joined = some error) : ∃ j ∈ joined, j.2.error j.1.id = some error := by
  induction joined using List.reverseRecOn with
  | nil => cases h
  | append_singleton joined j ih =>
    rw [lastError_append, Option.or_eq_some_iff] at h
    rcases h with h | ⟨-, h⟩
    · exact ⟨j, by simp, h⟩
    · obtain ⟨j', hj', herror⟩ := ih h
      exact ⟨j', by simp [hj'], herror⟩

namespace Finished

theorem joined_perm (h : Finished quote task start run) (hseparate : task.Separate start) :
    run.joined.Perm (task.results start) := by
  have hunderway := Underway.of_run hseparate h.1
  have hjoined : run.joined = (run.joined.map Prod.fst).map fun child => (child, child.outcome start) := by
    rw [List.map_map]
    refine (List.map_id _).symm.trans (List.map_congr_left fun j hj => ?_)
    rw [id_eq, Function.comp_apply, ← (hunderway.joined j hj).1]
  rw [hjoined, results]
  refine List.Perm.map _ ?_
  simpa [h.2.1] using hunderway.children

theorem result_eq (h : Finished quote task start run) (hseparate : task.Separate start) :
    run.hadError = lastError run.joined ∧
    run.completed = (task.results start).countP fun j => (j.2.error j.1.id).isNone := by
  have hunderway := Underway.of_run hseparate h.1
  exact ⟨hunderway.hadError, hunderway.completed.trans ((h.joined_perm hseparate).countP_eq _)⟩

theorem hadError_eq_none_iff (h : Finished quote task start run) (hseparate : task.Separate start) :
    run.hadError = none ↔ ∀ child ∈ task.children, (child.outcome start).error child.id = none := by
  rw [(h.result_eq hseparate).1, lastError_eq_none_iff]
  simp only [(h.joined_perm hseparate).mem_iff, results, List.forall_mem_map]

theorem mem_of_hadError (h : Finished quote task start run) (hseparate : task.Separate start) {error : String}
    (herror : run.hadError = some error) :
    ∃ child ∈ task.children, (child.outcome start).error child.id = some error := by
  rw [(h.result_eq hseparate).1] at herror
  obtain ⟨j, hj, hfailed⟩ := mem_of_lastError herror
  obtain ⟨child, hchild, rfl⟩ := List.mem_map.1 ((h.joined_perm hseparate).mem_iff.1 hj)
  exact ⟨child, hchild, hfailed⟩

/-- The context that every order leaves. -/
theorem data_eq (h : Finished quote task start run) (hseparate : task.Separate start) :
    (∀ child ∈ task.children, ∀ cell ∈ child.run.cells start, run.data cell = (child.run.run start).2 cell) ∧
    ∀ cell, (∀ child ∈ task.children, cell ∉ child.run.cells start) →
      run.data cell = assign start ((task.results start).flatMap (written quote task)) cell := by
  have hunderway := Underway.of_run hseparate h.1
  have hperm := h.joined_perm hseparate
  constructor
  · intro child hchild
    have hmem : (child, child.outcome start) ∈ run.joined := hperm.mem_iff.2 (List.mem_map_of_mem hchild)
    exact (hunderway.joined _ hmem).2
  · intro cell hcell
    have hdata := hunderway.data cell hcell
    rw [h.2.2, assign_nil] at hdata
    rw [hdata]
    have hwrites := hperm.flatMap_right (written quote task)
    rw [assign_perm ((hwrites.map Prod.fst).nodup_iff.2 hseparate.nodup) hwrites]

/-- What the key of a child that returned Ok holds. -/
theorem data_key (h : Finished quote task start run) (hseparate : task.Separate start) {child : Child}
    (hchild : child ∈ task.children) {result : TaskResult} (hresult : child.outcome start = .ok result)
    (field : String) (hfield : field ∈ fields) :
    run.data (task.key child.id field) = (output quote result field).or (start (task.key child.id field)) := by
  have hmem : (child, child.outcome start) ∈ task.results start := List.mem_map_of_mem hchild
  rw [(h.data_eq hseparate).2 _ fun a ha hcell => hseparate.keys a ha _ hcell child hchild field hfield rfl]
  cases houtput : output quote result field with
  | some j =>
    refine assign_of_mem hseparate.nodup (List.mem_flatMap.2 ⟨_, hmem, ?_⟩)
    rw [hresult]
    exact (mem_outputs hfield).2 ⟨j, houtput, rfl⟩
  | none =>
    refine assign_of_not_mem fun hkey => ?_
    obtain ⟨⟨key, value⟩, hwrite, rfl⟩ := List.mem_map.1 hkey
    obtain ⟨j, hj, hwrite⟩ := List.mem_flatMap.1 hwrite
    obtain ⟨other, hother, rfl⟩ := List.mem_map.1 hj
    obtain ⟨field', hfield', hkey⟩ := keys_written _ hwrite
    obtain ⟨hid, -⟩ := key_inj hfield hfield' hkey
    obtain rfl := List.inj_on_of_nodup_map hseparate.ids hchild hother hid
    rw [hresult] at hwrite
    obtain ⟨j, hj, -⟩ := (mem_outputs hfield).1 hwrite
    rw [houtput] at hj
    cases hj

end Finished

variable (quote task) in
/-- The rest of a child, undisturbed. -/
theorem run_child {before after : List (Child × Process String (Option Json) ChildOutcome)} {child : Child}
    (rest : Process String (Option Json) ChildOutcome) (run : FanOutRun)
    (h : run.running = before ++ (child, rest) :: after) :
    ∃ data outcome, (task.runs quote).Run run
      { run with data, running := before ++ (child, .done outcome) :: after } := by
  have hstep {r : FanOutRun} {rest rest' : Process String (Option Json) ChildOutcome} {data : ContextData}
      (hr : r.running = before ++ (child, rest) :: after) (hrest : rest.step r.data = some (rest', data)) :
      (task.runs quote).Run r { r with data, running := before ++ (child, rest') :: after } := by
    refine .step (i := .runs before.length) .refl ?_ trivial
    simp [runs, next, hr, hrest]
  induction rest generalizing run with
  | done result => exact ⟨run.data, result, h ▸ .refl⟩
  | read cell rest ih =>
    obtain ⟨data, outcome, hrun⟩ := ih (run.data cell)
      { run with running := before ++ (child, rest (run.data cell)) :: after } rfl
    exact ⟨data, outcome, (hstep h rfl).trans hrun⟩
  | write cell value rest ih =>
    obtain ⟨data, outcome, hrun⟩ := ih
      { run with
        data := Function.update run.data cell value
        running := before ++ (child, rest) :: after } rfl
    exact ⟨data, outcome, (hstep h rfl).trans hrun⟩

/-- The writes that the loop has to make. -/
theorem run_writes (run : FanOutRun) :
    (task.runs quote).Run run { run with data := assign run.data run.writes, writes := [] } := by
  rcases run with ⟨data, running, joined, writes, hadError, completed⟩
  induction writes generalizing data with
  | nil => exact .refl
  | cons write writes ih =>
    refine System.RunIf.trans (.step (i := .writes) .refl ?_ trivial) (ih (Function.update data write.1 write.2))
    rfl

variable (quote task) in
/-- The children can finish in any order. -/
theorem finishes_in_order (run : FanOutRun) {order : List (Child × Process String (Option Json) ChildOutcome)}
    (hperm : run.running.Perm order) (hwrites : run.writes = []) : ∃ run', (task.runs quote).Run run run' ∧
      run'.running = [] ∧ run'.writes = [] ∧
      run'.joined.map Prod.fst = run.joined.map Prod.fst ++ order.map Prod.fst := by
  induction order generalizing run with
  | nil => exact ⟨run, .refl, hperm.eq_nil, hwrites, by simp⟩
  | cons child order ih =>
    obtain ⟨before, after, hrunning⟩ := List.append_of_mem (hperm.mem_iff.2 List.mem_cons_self)
    obtain ⟨data, outcome, hchild⟩ := run_child quote task child.2 run hrunning
    let joined := task.join quote child.1 outcome { run with data, running := before ++ after }
    have hjoin : (task.runs quote).Run { run with data, running := before ++ (child.1, .done outcome) :: after }
        joined := by
      refine .step (i := .joins before.length) .refl ?_ trivial
      simp [runs, next, hwrites, joined, List.eraseIdx_append]
    let settled : FanOutRun := { joined with data := assign joined.data joined.writes, writes := [] }
    have hsettled : settled.running = before ++ after ∧
        settled.joined.map Prod.fst = run.joined.map Prod.fst ++ [child.1] := by
      cases outcome <;> simp [settled, joined, join]
    have hrest : settled.running.Perm order := by
      rw [hsettled.1]
      refine List.Perm.cons_inv (a := child) (List.Perm.trans ?_ hperm)
      rw [hrunning]
      exact List.perm_middle.symm
    obtain ⟨run', hrun, hend, hnone, horder⟩ := ih settled hrest rfl
    refine ⟨run', hchild.trans (hjoin.trans ((run_writes joined).trans hrun)), hend, hnone, ?_⟩
    rw [horder, hsettled.2, List.map_cons, List.append_assoc, List.singleton_append]

variable (quote start) in
theorem finished_in_order {order : List Child} (hperm : task.children.Perm order) :
    ∃ run, Finished quote task start run ∧ run.joined.map Prod.fst = order := by
  have hspawned : (task.spawned start).running.Perm (order.map fun child => (child, child.run)) := hperm.map _
  obtain ⟨run, hrun, hend, hwrites, horder⟩ := finishes_in_order quote task _ hspawned rfl
  refine ⟨run, ⟨hrun, hend, hwrites⟩, ?_⟩
  simpa [spawned, Function.comp_def] using horder

theorem Finished.holds_iff (h : Finished quote task start run) (hseparate : task.Separate start) {child : Child}
    (hchild : child ∈ task.children) {result : TaskResult} (hresult : child.outcome start = .ok result) :
    task.Holds quote run.data child.id result ↔
      (result.response = none → start (task.key child.id "response") = none) ∧
      (result.statusMessage = none → start (task.key child.id "status") = none) := by
  have hresponse := h.data_key hseparate hchild hresult "response" (by simp [fields])
  have hstatus := h.data_key hseparate hchild hresult "status" (by simp [fields])
  have haction := h.data_key hseparate hchild hresult "next_action" (by simp [fields])
  rw [Holds, hresponse, hstatus, haction]
  cases hr : result.response <;> cases hs : result.statusMessage <;> simp [output, hr, hs]

theorem Finished.data_unique (h : Finished quote task start run) (h' : Finished quote task start run')
    (hseparate : task.Separate start) : run.data = run'.data := by
  funext cell
  by_cases hcell : ∃ child ∈ task.children, cell ∈ child.run.cells start
  · obtain ⟨child, hchild, hcell⟩ := hcell
    rw [(h.data_eq hseparate).1 child hchild cell hcell, (h'.data_eq hseparate).1 child hchild cell hcell]
  · have hfree : ∀ child ∈ task.children, cell ∉ child.run.cells start := by simpa using hcell
    rw [(h.data_eq hseparate).2 cell hfree, (h'.data_eq hseparate).2 cell hfree]

theorem Finished.result_unique (h : Finished quote task start run) (h' : Finished quote task start run')
    (hseparate : task.Separate start) (hagree : task.ErrorsAgree start) : task.result run = task.result run' := by
  have herror : run.hadError = run'.hadError := by
    have hnone := (h.hadError_eq_none_iff hseparate).trans (h'.hadError_eq_none_iff hseparate).symm
    cases he : run.hadError with
    | none => exact (hnone.1 he).symm
    | some error =>
      cases he' : run'.hadError with
      | none =>
        rw [hnone.2 he'] at he
        cases he
      | some error' =>
        obtain ⟨a, ha, hfailed⟩ := h.mem_of_hadError hseparate he
        obtain ⟨b, hb, hfailed'⟩ := h'.mem_of_hadError hseparate he'
        rw [hagree a ha b hb error error' hfailed hfailed']
  rw [FanOutTask.result, FanOutTask.result, herror, (h.result_eq hseparate).2, (h'.result_eq hseparate).2]

theorem Finished.hadError_of_ok {result : TaskResult} (hresult : task.result run = .ok result) :
    run.hadError = none := by
  cases he : run.hadError with
  | none => rfl
  | some error => simp [FanOutTask.result, he] at hresult

variable (quote) in
/-- Any child can be the last to finish, and if it fails, its error is the one returned. -/
theorem exists_last_error (hseparate : task.Separate start) {child : Child} (hchild : child ∈ task.children)
    {error : String} (herror : (child.outcome start).error child.id = some error) :
    ∃ run, Finished quote task start run ∧ task.result run = .error (.taskExecutionFailed error) := by
  obtain ⟨before, after, hsplit⟩ := List.append_of_mem hchild
  have hperm : task.children.Perm ((before ++ after) ++ [child]) := by
    rw [hsplit, List.append_assoc]
    exact List.Perm.append_left before (List.perm_append_singleton child after).symm
  obtain ⟨run, hrun, horder⟩ := finished_in_order quote start hperm
  obtain ⟨front, last, hjoined, -, hlast⟩ := List.map_eq_append_iff.1 horder
  obtain ⟨j, rfl, rfl⟩ := List.map_eq_singleton_iff.1 hlast
  have houtcome := ((Underway.of_run hseparate hrun.1).joined j (by simp [hjoined])).1
  refine ⟨run, hrun, ?_⟩
  rw [FanOutTask.result, (hrun.result_eq hseparate).1, hjoined, lastError_append, houtcome, herror]
  rfl

/-- Every order gives the same result and the same context, and the keys of each child hold what it returned, exactly
when no two children fail with different errors and no key is left over from before: the loop keeps the error of the
last child to fail, and it removes no key. -/
theorem order_does_not_matter_iff (hseparate : task.Separate start) :
    ((∀ run run', Finished quote task start run → Finished quote task start run' →
        task.result run = task.result run' ∧ run.data = run'.data) ∧
      (∀ run result, Finished quote task start run → task.result run = .ok result → ∀ child ∈ task.children,
        ∃ returned, (child, .ok returned) ∈ run.joined ∧ task.Holds quote run.data child.id returned) ∧
      (∀ a ∈ task.children, ∀ b ∈ task.children, ∀ field ∈ fields, ∀ field' ∈ fields,
        task.key a.id field = task.key b.id field' → a.id = b.id ∧ field = field')) ↔
    task.ErrorsAgree start ∧ task.NothingStale start := by
  constructor
  · rintro ⟨hsame, hholds, -⟩
    constructor
    · intro a ha b hb error error' herror herror'
      obtain ⟨run, hrun, hresult⟩ := exists_last_error quote hseparate ha herror
      obtain ⟨run', hrun', hresult'⟩ := exists_last_error quote hseparate hb herror'
      have heq := (hsame run run' hrun hrun').1
      rw [hresult, hresult'] at heq
      simpa using heq
    · intro hnone a ha result hresult
      obtain ⟨run, hrun, -⟩ := finished_in_order quote start (List.Perm.refl task.children)
      have hno := (hrun.hadError_eq_none_iff hseparate).2 hnone
      obtain ⟨returned, hjoined, hreturned⟩ := hholds run _ hrun (by rw [FanOutTask.result, hno]) a ha
      have houtcome := ((Underway.of_run hseparate hrun.1).joined _ hjoined).1
      obtain rfl : returned = result := by simpa [hresult] using houtcome
      exact (hrun.holds_iff hseparate ha hresult).1 hreturned
  · rintro ⟨hagree, hstale⟩
    refine ⟨fun run run' hrun hrun' => ?_, fun run result hrun hresult child hchild => ?_, ?_⟩
    · exact ⟨hrun.result_unique hrun' hseparate hagree, hrun.data_unique hrun' hseparate⟩
    · have hnone := (hrun.hadError_eq_none_iff hseparate).1 (Finished.hadError_of_ok hresult)
      have hjoined : (child, child.outcome start) ∈ run.joined :=
        (hrun.joined_perm hseparate).mem_iff.2 (List.mem_map_of_mem hchild)
      cases houtcome : child.outcome start with
      | ok returned =>
        rw [houtcome] at hjoined
        have hkept := hstale hnone child hchild returned houtcome
        exact ⟨returned, hjoined, (hrun.holds_iff hseparate hchild houtcome).2 hkept⟩
      | failed error | panicked message => simpa [houtcome, ChildOutcome.error] using hnone child hchild
    · intro a _ b _ field hfield field' hfield' heq
      exact key_inj hfield hfield' heq

/-- Two children that write keys of their own. -/
def sharing : FanOutTask where
  id := "fan"
  children := [
    ⟨"left", .write "out.left" (some (.bool true)) (.done (.ok ⟨some "left ok", .end, none⟩))⟩,
    ⟨"right", .read "in.right" fun _ => .done (.ok ⟨none, .waitForInput, some "idle"⟩)⟩]
  keyPrefix := some "agg"
  nextAction := .continue

theorem sharing_in_any_order : ∃ run result, Finished String.quote sharing (fun _ => none) run ∧
    sharing.result run = .ok result ∧ ∀ child ∈ sharing.children,
      ∃ returned, (child, .ok returned) ∈ run.joined ∧ sharing.Holds String.quote run.data child.id returned := by
  have hseparate : sharing.Separate fun _ => none := ⟨by decide, by decide, by decide⟩
  have hnone : ∀ child ∈ sharing.children, (child.outcome fun _ => none).error child.id = none := by decide
  have hagree : sharing.ErrorsAgree fun _ => none := by
    intro a ha _ _ error _ herror _
    rw [hnone a ha] at herror
    cases herror
  have hstale : sharing.NothingStale fun _ => none := fun _ _ _ _ _ => ⟨fun _ => rfl, fun _ => rfl⟩
  obtain ⟨run, hrun, -⟩ := finished_in_order String.quote (fun _ => none) (List.Perm.refl sharing.children)
  obtain ⟨result, hresult⟩ : ∃ result, sharing.result run = .ok result := by
    rw [FanOutTask.result, (hrun.hadError_eq_none_iff hseparate).2 hnone]
    exact ⟨_, rfl⟩
  exact ⟨run, result, hrun, hresult, ((order_does_not_matter_iff hseparate).2 ⟨hagree, hstale⟩).2.1 run _ hrun hresult⟩

/-- Two children that fail. -/
def failing : FanOutTask where
  id := "fan"
  children := [⟨"left", .done (.failed "timeout")⟩, ⟨"right", .done (.failed "refused")⟩]
  keyPrefix := none
  nextAction := .continue

theorem failing_in_two_orders : failing.Separate (fun _ => none) ∧
    ∃ run run', Finished String.quote failing (fun _ => none) run ∧
      Finished String.quote failing (fun _ => none) run' ∧ failing.result run ≠ failing.result run' := by
  refine ⟨⟨by decide, by decide, by decide⟩, _, _,
    ⟨.step (i := .joins 0) (.step (i := .joins 0) .refl rfl trivial) rfl trivial, rfl, rfl⟩,
    ⟨.step (i := .joins 0) (.step (i := .joins 1) .refl rfl trivial) rfl trivial, rfl, rfl⟩, ?_⟩
  simp only [FanOutTask.result, join, ne_eq, Except.error.injEq, GraphError.taskExecutionFailed.injEq]
  decide

end FanOutTask
end Fusions.Ai
