import Fusions.Library.Runs
import Fusions.Ai.GraphFlow.Graph

/-! `FlowRunner::run` over the Postgres session storage: load, execute one step, save, by any number of
calls in any order. -/
namespace Fusions.Ai
open Fusions.Library
variable {C : Type}

/-- A row of `sessions`. -/
structure SessionRow (C : Type) where
  session : Session C
  updatedAt : Int

/-- The table `sessions` by id. -/
abbrev SessionTable (C : Type) := String → Option (SessionRow C)

namespace SessionTable

/-- `WHERE sessions.updated_at <= EXCLUDED.updated_at`, or no row to conflict with. -/
def accepts (table : SessionTable C) (id : String) (now : Int) : Bool :=
  (table id).all fun row => row.updatedAt ≤ now

/-- `save`: `NOW()` is the new `updated_at`, and it is what the guard compares with. -/
def save (table : SessionTable C) (session : Session C) (now : Int) : SessionTable C := fun id =>
  if id = session.id then
    if table.accepts session.id now then some ⟨session, now⟩ else table id
  else table id

def get (table : SessionTable C) (id : String) : Option (Session C) := (table id).map SessionRow.session

end SessionTable

/-- What has been saved to a session: how often, and the calls whose effects the stored session has. -/
structure Version where
  number : Nat
  effects : List Nat
  deriving DecidableEq, Repr

/-- A call of `run` that has loaded its session, the version it loaded, and whether it has executed. -/
structure RunCall (C : Type) where
  session : Session C
  loaded : Version
  executed : Bool

/-- A save that took place: by which call, the version it had loaded and the one it replaced. -/
structure SaveRecord where
  call : Nat
  id : String
  loaded : Version
  replaced : Version
  deriving DecidableEq, Repr

/-- The storage, the clock, the calls under way, and on record: the version of each stored session, the
saves, and the calls that returned Ok with their sessions. -/
structure Runner (C : Type) where
  table : SessionTable C
  clock : Int
  calls : List (Nat × RunCall C)
  versions : String → Version
  saves : List SaveRecord
  returned : List (Nat × String)

/-- The steps of the calls. A call that fails has returned an error and kept nothing. -/
inductive RunnerAction (C : Type) where
  | loads (call : Nat) (id : String)
  | executes (call : Nat) (graph : Graph C) (fuel : Nat)
  | saves (call : Nat) (now : Int)
  | fails (call : Nat)

namespace Runner
variable (runner : Runner C)

def call (k : Nat) : Option (RunCall C) := (runner.calls.find? (·.1 == k)).map Prod.snd

def others (k : Nat) : List (Nat × RunCall C) := runner.calls.filter (·.1 != k)

/-- The save of a call: the row, and what goes on record. -/
def saved (k : Nat) (call : RunCall C) (now : Int) : Runner C :=
  let id := call.session.id
  let replaced := runner.versions id
  { runner with
    table := runner.table.save call.session now
    clock := now
    calls := runner.others k
    versions := fun i =>
      if i = id ∧ runner.table.accepts id now then ⟨replaced.number + 1, k :: call.loaded.effects⟩
      else runner.versions i
    saves := if runner.table.accepts id now then ⟨k, id, call.loaded, replaced⟩ :: runner.saves else runner.saves
    returned := (k, id) :: runner.returned }

/-- The next state, if the step is possible. A call's number is not used again. -/
def next : RunnerAction C → Option (Runner C)
  | .loads k id =>
    if (runner.call k).isSome || runner.returned.any (·.1 == k) then none
    else (runner.table.get id).map fun session =>
      { runner with calls := (k, ⟨session, runner.versions id, false⟩) :: runner.calls }
  | .executes k graph fuel => do
    let call ← runner.call k
    if call.executed then none
    else
      match ← graph.executeSession fuel call.session with
      | .ok (_, session) =>
        some { runner with calls := (k, { call with session, executed := true }) :: runner.others k }
      | .error _ => some { runner with calls := runner.others k }
  | .saves k now => do
    let call ← runner.call k
    if call.executed && runner.clock ≤ now then some (runner.saved k call now) else none
  | .fails k => (runner.call k).map fun _ => { runner with calls := runner.others k }

end Runner

/-- Sessions that are stored under their ids, not after the clock's reading, and no calls yet. -/
structure Runner.Fresh (runner : Runner C) : Prop where
  stored : ∀ id row, runner.table id = some row → row.session.id = id ∧ row.updatedAt ≤ runner.clock
  versions : ∀ id, runner.versions id = ⟨0, []⟩
  calls : runner.calls = []
  saves : runner.saves = []
  returned : runner.returned = []

/-- The calls of `run`, in any order of their steps. -/
def runners : System (Runner C) (RunnerAction C) where
  init := Runner.Fresh
  step runner action runner' := runner.next action = some runner'

/-- No save has replaced a session that was saved after the call's own load, and the stored sessions
have the effects of every call that returned Ok. -/
structure Runner.NothingLost (runner : Runner C) : Prop where
  saves : ∀ s ∈ runner.saves, s.replaced.number ≤ s.loaded.number
  effects : ∀ r ∈ runner.returned, r.1 ∈ (runner.versions r.2).effects

/-- A call saves while no other call holds a copy of its session. -/
def Runner.SavesAlone (runner : Runner C) : RunnerAction C → Prop
  | .saves k _ => ∀ call ∈ runner.call k, ∀ o ∈ runner.others k, o.2.session.id ≠ call.session.id
  | _ => True

instance : (runner : Runner C) → (action : RunnerAction C) → Decidable (runner.SavesAlone action)
  | runner, .saves k _ => inferInstanceAs (Decidable (∀ call ∈ runner.call k, ∀ o ∈ runner.others k, _))
  | _, .loads .. | _, .executes .. | _, .fails _ => .isTrue trivial

namespace Runner
variable {runner runner' : Runner C} {k : Nat}

theorem mem_of_call {call : RunCall C} (h : runner.call k = some call) : (k, call) ∈ runner.calls := by
  obtain ⟨o, ho, rfl⟩ := Option.map_eq_some_iff.1 h
  have hk : o.1 = k := by simpa using List.find?_some ho
  rw [← hk]
  exact List.mem_of_find?_eq_some ho

theorem mem_others {o : Nat × RunCall C} : o ∈ runner.others k ↔ o ∈ runner.calls ∧ o.1 ≠ k := by
  simp [others]

/-- Where the runs stay when every save is made alone: every copy under way is the stored version of its
session, and nothing is lost. -/
structure Current (runner : Runner C) : Prop where
  stored : ∀ id row, runner.table id = some row → row.session.id = id ∧ row.updatedAt ≤ runner.clock
  calls : ∀ o ∈ runner.calls, o.2.loaded = runner.versions o.2.session.id
  nothingLost : runner.NothingLost

namespace Current

theorem loads {id : String} {session : Session C} (h : runner.Current) (hget : runner.table.get id = some session) :
    { runner with calls := (k, ⟨session, runner.versions id, false⟩) :: runner.calls : Runner C }.Current where
  stored := h.stored
  calls := by
    obtain ⟨row, hrow, rfl⟩ := Option.map_eq_some_iff.1 hget
    refine List.forall_mem_cons.2 ⟨?_, h.calls⟩
    rw [(h.stored id row hrow).1]
  nothingLost := ⟨h.nothingLost.saves, h.nothingLost.effects⟩

theorem executes {call : RunCall C} {session : Session C} (h : runner.Current) (hcall : runner.call k = some call)
    (hid : session.id = call.session.id) :
    { runner with
      calls := (k, { call with session, executed := true }) :: runner.others k : Runner C }.Current where
  stored := h.stored
  calls := by
    refine List.forall_mem_cons.2 ⟨?_, fun o ho => h.calls o (mem_others.1 ho).1⟩
    show call.loaded = runner.versions session.id
    rw [hid]
    exact h.calls _ (mem_of_call hcall)
  nothingLost := ⟨h.nothingLost.saves, h.nothingLost.effects⟩

theorem fails (h : runner.Current) : { runner with calls := runner.others k : Runner C }.Current where
  stored := h.stored
  calls := fun o ho => h.calls o (mem_others.1 ho).1
  nothingLost := ⟨h.nothingLost.saves, h.nothingLost.effects⟩

/-- The clock does not run backwards, so the guard lets every save through. -/
theorem accepts (h : runner.Current) (id : String) {now : Int} (hnow : runner.clock ≤ now) :
    runner.table.accepts id now = true := by
  unfold SessionTable.accepts
  cases hrow : runner.table id with
  | none => rfl
  | some row => simpa using Int.le_trans (h.stored id row hrow).2 hnow

theorem saves {call : RunCall C} {now : Int} (h : runner.Current) (hcall : runner.call k = some call)
    (hnow : runner.clock ≤ now) (halone : ∀ o ∈ runner.others k, o.2.session.id ≠ call.session.id) :
    (runner.saved k call now).Current := by
  have haccepts := h.accepts call.session.id hnow
  have hversion : call.loaded = runner.versions call.session.id := h.calls _ (mem_of_call hcall)
  refine ⟨fun id row hrow => ?_, fun o ho => ?_, ?_, ?_⟩
  · by_cases hid : id = call.session.id
    · subst hid
      obtain rfl : ⟨call.session, now⟩ = row := by
        simpa [saved, SessionTable.save, haccepts] using hrow
      exact ⟨rfl, Int.le_refl _⟩
    · have hold : runner.table id = some row := by simpa [saved, SessionTable.save, hid] using hrow
      exact ⟨(h.stored id row hold).1, Int.le_trans (h.stored id row hold).2 hnow⟩
  · show o.2.loaded = _
    simp only [saved, if_neg fun hid => halone o ho (And.left hid)]
    exact h.calls o (mem_others.1 ho).1
  · simp only [saved, haccepts, if_true]
    refine List.forall_mem_cons.2 ⟨?_, h.nothingLost.saves⟩
    exact Nat.le_of_eq (congrArg Version.number hversion.symm)
  · refine List.forall_mem_cons.2 ⟨?_, fun r hr => ?_⟩
    · simp [saved, haccepts]
    · have hmem := h.nothingLost.effects r hr
      by_cases hid : r.2 = call.session.id
      · rw [hid, ← hversion] at hmem
        simp [saved, hid, haccepts, hmem]
      · simpa [saved, hid] using hmem

theorem step {action : RunnerAction C} (h : runner.Current) (hstep : runner.next action = some runner')
    (halone : runner.SavesAlone action) : runner'.Current := by
  cases action with
  | loads k id =>
    simp only [next] at hstep
    split at hstep
    · cases hstep
    · obtain ⟨session, hget, rfl⟩ := Option.map_eq_some_iff.1 hstep
      exact h.loads hget
  | executes k graph fuel =>
    simp only [next, Option.bind_eq_bind, Option.bind_eq_some_iff] at hstep
    obtain ⟨call, hcall, hstep⟩ := hstep
    split at hstep
    · cases hstep
    obtain ⟨result, hexec, hstep⟩ := Option.bind_eq_some_iff.1 hstep
    split at hstep
    · cases hstep
      exact h.executes hcall (Graph.executeSession_id hexec).1
    · cases hstep
      exact h.fails
  | saves k now =>
    simp only [next, Option.bind_eq_bind, Option.bind_eq_some_iff] at hstep
    obtain ⟨call, hcall, hstep⟩ := hstep
    split at hstep
    · next hready =>
      cases hstep
      have hnow : runner.clock ≤ now := by
        simp only [Bool.and_eq_true, decide_eq_true_eq] at hready
        exact hready.2
      exact h.saves hcall hnow (halone call hcall)
    · cases hstep
  | fails k =>
    obtain ⟨call, -, rfl⟩ := Option.map_eq_some_iff.1 hstep
    exact h.fails

end Current

/-- Runs whose saves are each made while no other call holds a copy of the session lose nothing. -/
theorem nothing_lost (h : runners.ReachableIf SavesAlone runner) : runner.NothingLost := by
  have hcurrent : runner.Current := by
    refine h.invariant (P := Current) ?_ fun r action r' _ hr hstep halone => hr.step hstep halone
    intro r hfresh
    refine ⟨hfresh.stored, ?_, ?_, ?_⟩
    · simp [hfresh.calls]
    · simp [hfresh.saves]
    · simp [hfresh.returned]
  exact hcurrent.nothingLost

/-- A chat session that has been stored, and a graph whose task adds a line to it. -/
def chat : Runner (List String) where
  table id := if id = "chat" then some ⟨⟨"chat", "default", "reply", none, []⟩, 0⟩ else none
  clock := 0
  calls := []
  versions _ := ⟨0, []⟩
  saves := []
  returned := []

def replying (line : String) : Graph (List String) where
  tasks id :=
    if id = "reply" then some fun lines => (.ok ⟨some line, .waitForInput, none⟩, lines ++ [line]) else none
  edges := []

theorem chat_fresh : chat.Fresh where
  stored := by
    intro id row h
    simp only [chat, Option.ite_none_right_eq_some] at h
    obtain ⟨rfl, h⟩ := h
    cases h
    exact ⟨rfl, Int.le_refl _⟩
  versions _ := rfl
  calls := rfl
  saves := rfl
  returned := rfl

theorem nothing_lost_in_turn : ∃ runner : Runner (List String), runner.NothingLost ∧
    runner.returned = [(2, "chat"), (1, "chat")] ∧
    (runner.table.get "chat").map Session.context = some ["first", "second"] := by
  have hplay : (System.play next SavesAlone chat [.loads 1 "chat", .executes 1 (replying "first") 1, .saves 1 5,
      .loads 2 "chat", .executes 2 (replying "second") 1, .saves 2 7]).any (fun r =>
        r.returned = [(2, "chat"), (1, "chat")] ∧
          (r.table.get "chat").map Session.context = some ["first", "second"]) = true := by decide
  obtain ⟨runner, hrun, hend⟩ := (Option.any_eq_true _ _).1 hplay
  have hreach : runners.ReachableIf SavesAlone runner :=
    (System.ReachableIf.init chat_fresh).play (fun _ _ _ h => h) hrun
  exact ⟨runner, nothing_lost hreach, of_decide_eq_true hend⟩

/-- Two calls that have loaded the same version both save: the guard passes, and the first one's line is gone. -/
theorem overlapping_saves_lose : ∃ runner : Runner (List String), runners.Reachable runner ∧ ¬ runner.NothingLost ∧
    runner.returned = [(2, "chat"), (1, "chat")] ∧
    (runner.table.get "chat").map Session.context = some ["second"] := by
  have hplay : (System.play next (fun _ _ => True) chat [.loads 1 "chat", .loads 2 "chat",
      .executes 1 (replying "first") 1, .executes 2 (replying "second") 1, .saves 1 5, .saves 2 7]).any (fun r =>
        (r.versions "chat").effects = [2] ∧ r.returned = [(2, "chat"), (1, "chat")] ∧
          (r.table.get "chat").map Session.context = some ["second"]) = true := by decide
  obtain ⟨runner, hrun, hend⟩ := (Option.any_eq_true _ _).1 hplay
  obtain ⟨heffects, hreturned, hcontext⟩ := of_decide_eq_true hend
  refine ⟨runner, (System.ReachableIf.init chat_fresh).play (fun _ _ _ h => h) hrun, fun hnothing => ?_, hreturned,
    hcontext⟩
  have hmem := hnothing.effects (1, "chat") (by rw [hreturned]; simp)
  rw [heffects] at hmem
  simp at hmem

end Runner

end Fusions.Ai
