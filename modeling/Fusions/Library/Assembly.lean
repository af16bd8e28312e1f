import Fusions.Library.Rely

/-! Programs put together from blocks, with the errors that they raise themselves. Such a program runs alike under two
handlers that run its blocks alike, and goes wrong only as its blocks do or by an error of its own. -/
namespace Fusions.Library

/-- An outcome that keeps an invariant where it returns, and is of a given kind where it is an error. -/
def Outcome.Within {ε α σ : Type} (I : σ → Prop) (fails : ε → Prop) : Outcome ε (α × σ) → Prop
  | .ok (_, s) => I s
  | .error e => fails e
  | .diverge => True

theorem Outcome.Within.andThen {ε α β σ : Type} {I : σ → Prop} {fails : ε → Prop} {o : Outcome ε (α × σ)}
    {next : α → σ → Outcome ε (β × σ)} (h : o.Within I fails) (hnext : ∀ a s, I s → (next a s).Within I fails) :
    (o.andThen next).Within I fails := by
  cases o with
  | ok x => exact hnext x.1 x.2 h
  | error e => exact h
  | diverge => trivial

namespace Program
variable {S : Type → Type} {M ε α β σ : Type}

/-- Programs put together from blocks, with marks of the kind `marks` and errors of the kind `fails`. -/
inductive AssembledFrom (block : ∀ γ : Type, Program S M ε γ → Prop) (marks : M → Prop) (fails : ε → Prop) :
    ∀ {α : Type}, Program S M ε α → Prop where
  | done {α : Type} (a : α) : AssembledFrom block marks fails (.done a)
  | fail {α : Type} {e : ε} : fails e → AssembledFrom block marks fails (.fail e : Program S M ε α)
  | diverge {α : Type} : AssembledFrom block marks fails (.diverge : Program S M ε α)
  | mark {α : Type} {m : M} {p : Program S M ε α} :
      marks m → AssembledFrom block marks fails p → AssembledFrom block marks fails (.mark m p)
  | block {α : Type} {p : Program S M ε α} : block α p → AssembledFrom block marks fails p
  | bind {α β : Type} {p : Program S M ε α} {f : α → Program S M ε β} :
      AssembledFrom block marks fails p → (∀ a, AssembledFrom block marks fails (f a)) →
      AssembledFrom block marks fails (p >>= f)

namespace AssembledFrom
variable {block block' : ∀ γ : Type, Program S M ε γ → Prop} {marks : M → Prop} {fails : ε → Prop}
  {p q : Program S M ε α}

theorem pure (a : α) : (Pure.pure a : Program S M ε α).AssembledFrom block marks fails := .done a

theorem ofExcept {x : Except ε α} (h : ∀ e, x = .error e → fails e) :
    (Program.ofExcept x : Program S M ε α).AssembledFrom block marks fails := by
  cases x with
  | ok a => exact .done a
  | error e => exact .fail (h e rfl)

theorem ite {c : Prop} [Decidable c] (hp : p.AssembledFrom block marks fails)
    (hq : q.AssembledFrom block marks fails) : (if c then p else q).AssembledFrom block marks fails := by
  split
  · exact hp
  · exact hq

theorem whenever {p : Program S M ε Unit} (c : Bool) (h : p.AssembledFrom block marks fails) :
    (Program.whenever c p).AssembledFrom block marks fails :=
  ite h (pure ())

theorem forM {f : β → Program S M ε PUnit} (xs : List β) (h : ∀ x, (f x).AssembledFrom block marks fails) :
    (xs.forM f).AssembledFrom block marks fails := by
  induction xs with
  | nil => exact pure _
  | cons x xs ih => exact .bind (h x) fun _ => ih

/-- Its errors forgotten. -/
theorem builtFrom (hblock : ∀ {γ : Type} (q : Program S M ε γ), block γ q → block' γ q)
    (h : p.AssembledFrom block marks fails) : p.BuiltFrom block' marks := by
  induction h with
  | done a => exact .done a
  | fail _ => exact .fail _
  | diverge => exact .diverge
  | mark hm _ ih => exact .mark hm ih
  | block hq => exact .block (hblock _ hq)
  | bind _ _ ihp ihf => exact .bind ihp ihf

/-- Handlers that run the blocks alike run the program alike. -/
theorem run_eq {h₁ h₂ : {β : Type} → S β → σ → Except ε (β × σ)}
    (hblock : ∀ {γ : Type} (q : Program S M ε γ), block γ q → ∀ s, q.run h₁ s = q.run h₂ s)
    (h : p.AssembledFrom block marks fails) (s : σ) : p.run h₁ s = p.run h₂ s := by
  induction h generalizing s with
  | done | fail | diverge => rfl
  | mark _ _ ih => exact ih s
  | block hq => exact hblock _ hq s
  | bind _ _ ihp ihf => exact run_bind_congr (ihp s) fun a t _ => ihf a t

/-- What every block keeps, the program keeps; its errors are those of the blocks or its own. -/
theorem run_within {handle : {β : Type} → S β → σ → Except ε (β × σ)} {I : σ → Prop}
    (hblock : ∀ {γ : Type} (q : Program S M ε γ), block γ q → ∀ s, I s → (q.run handle s).Within I fails)
    (h : p.AssembledFrom block marks fails) {s : σ} (hs : I s) : (p.run handle s).Within I fails := by
  induction h generalizing s with
  | done => exact hs
  | fail he => exact he
  | diverge => trivial
  | mark _ _ ih => exact ih hs
  | block hq => exact hblock _ hq s hs
  | bind _ _ ihp ihf =>
    rw [run_bind]
    exact (ihp hs).andThen fun a t ht => ihf a ht

end AssembledFrom

end Program
end Fusions.Library
