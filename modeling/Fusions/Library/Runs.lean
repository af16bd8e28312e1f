import Mathlib.Init

/-! Labelled transition systems, the states of the runs whose steps all meet a condition, and the
invariant rules for them. -/
namespace Fusions.Library
universe u v

/-- States, labelled steps, and where runs begin. -/
structure System (σ : Type u) (ι : Type v) where
  init : σ → Prop
  step : σ → ι → σ → Prop

namespace System
variable {σ : Type u} {ι : Type v} (S : System σ ι)

/-- The states of the runs whose steps all meet `ok`. -/
inductive ReachableIf (ok : σ → ι → Prop) : σ → Prop where
  | init {s : σ} : S.init s → ReachableIf ok s
  | step {s s' : σ} {i : ι} : ReachableIf ok s → S.step s i s' → ok s i → ReachableIf ok s'

/-- The states of all runs. -/
abbrev Reachable : σ → Prop := S.ReachableIf fun _ _ => True

variable {S} {ok ok' : σ → ι → Prop}

theorem ReachableIf.mono (h : ∀ s i, ok s i → ok' s i) {s : σ} (hs : S.ReachableIf ok s) :
    S.ReachableIf ok' s := by
  induction hs with
  | init h₀ => exact .init h₀
  | step _ hstep hok ih => exact .step ih hstep (h _ _ hok)

theorem ReachableIf.reachable {s : σ} (hs : S.ReachableIf ok s) : S.Reachable s :=
  hs.mono fun _ _ _ => trivial

/-- What holds where runs begin and is kept by every step that meets the condition, holds in every
state reached. The step may use that its start is reachable. -/
theorem ReachableIf.invariant {P : σ → Prop} (hinit : ∀ s, S.init s → P s)
    (hstep : ∀ s i s', S.ReachableIf ok s → P s → S.step s i s' → ok s i → P s') {s : σ}
    (hs : S.ReachableIf ok s) : P s := by
  induction hs with
  | init h₀ => exact hinit _ h₀
  | step hs hst hok ih => exact hstep _ _ _ hs ih hst hok

variable (S) in
/-- The states that the runs from `s` reach when their steps all meet `ok`. -/
inductive RunIf (ok : σ → ι → Prop) (s : σ) : σ → Prop where
  | refl : RunIf ok s s
  | step {t t' : σ} {i : ι} : RunIf ok s t → S.step t i t' → ok t i → RunIf ok s t'

variable (S) in
/-- The states that the runs from `s` reach. -/
abbrev Run : σ → σ → Prop := S.RunIf fun _ _ => True

theorem RunIf.mono (h : ∀ s i, ok s i → ok' s i) {s t : σ} (hrun : S.RunIf ok s t) : S.RunIf ok' s t := by
  induction hrun with
  | refl => exact .refl
  | step _ hstep hok ih => exact .step ih hstep (h _ _ hok)

theorem RunIf.trans {s t u : σ} (h : S.RunIf ok s t) (h' : S.RunIf ok t u) : S.RunIf ok s u := by
  induction h' with
  | refl => exact h
  | step _ hstep hok ih => exact .step ih hstep hok

theorem RunIf.reachableIf {s t : σ} (h : S.RunIf ok s t) (hs : S.ReachableIf ok s) : S.ReachableIf ok t := by
  induction h with
  | refl => exact hs
  | step _ hstep hok ih => exact ih.step hstep hok

theorem RunIf.reachable {s t : σ} (h : S.RunIf ok s t) (hs : S.Reachable s) : S.Reachable t :=
  (h.mono fun _ _ _ => trivial).reachableIf hs

/-- What holds at the start of a run and is kept by its steps holds where it ends. -/
theorem RunIf.invariant {P : σ → Prop} {s t : σ} (h : S.RunIf ok s t) (hs : S.Reachable s) (hP : P s)
    (hstep : ∀ t i t', S.Reachable t → P t → S.step t i t' → ok t i → P t') : P t := by
  induction h with
  | refl => exact hP
  | step hrun hst hok ih => exact hstep _ _ _ (hrun.reachable hs) ih hst hok

/-- Where every state that is not done leads to one with less left, some run ends in a state that is. -/
theorem RunIf.of_progress {P D : σ → Prop} (left : σ → Nat)
    (h : ∀ s, P s → ¬ D s → ∃ t, S.RunIf ok s t ∧ P t ∧ left t < left s) {s : σ} (hs : P s) :
    ∃ t, S.RunIf ok s t ∧ P t ∧ D t := by
  generalize hn : left s = n
  induction n using Nat.strongRecOn generalizing s with
  | ind n ih =>
    by_cases hdone : D s
    · exact ⟨s, .refl, hs, hdone⟩
    · obtain ⟨t, hrun, ht, hless⟩ := h s hs hdone
      obtain ⟨u, hrest, hu⟩ := ih (left t) (hn ▸ hless) ht rfl
      exact ⟨u, hrun.trans hrest, hu⟩

section
variable (next : σ → ι → Option σ) (ok : σ → ι → Prop) [∀ s i, Decidable (ok s i)]

/-- Steps computed one after the other, as long as each is possible and meets `ok`. -/
def play : σ → List ι → Option σ
  | s, [] => some s
  | s, i :: is => if ok s i then (next s i).bind fun s' => play s' is else none

variable {next ok}

/-- Computed steps are a run. -/
theorem RunIf.play (hnext : ∀ s i s', next s i = some s' → S.step s i s') {s t : σ} {is : List ι}
    (hok : ∀ i ∈ is, ∀ s, ok s i → ok' s i) (h : play next ok s is = some t) : S.RunIf ok' s t := by
  suffices hrun : ∀ {r : σ}, S.RunIf ok' r s → S.RunIf ok' r t from hrun .refl
  intro r hr
  induction is generalizing s with
  | nil =>
    cases h
    exact hr
  | cons i is ih =>
    unfold System.play at h
    split at h
    · next hi =>
      obtain ⟨s', hs', h⟩ := Option.bind_eq_some_iff.1 h
      obtain ⟨hhead, htail⟩ := List.forall_mem_cons.1 hok
      exact ih htail h (hr.step (hnext _ _ _ hs') (hhead s hi))
    · cases h

theorem ReachableIf.play (hnext : ∀ s i s', next s i = some s' → S.step s i s') {s t : σ} {is : List ι}
    (hs : S.ReachableIf ok s) (h : play next ok s is = some t) : S.ReachableIf ok t :=
  (RunIf.play hnext (fun _ _ _ hi => hi) h).reachableIf hs

end

end System

end Fusions.Library
