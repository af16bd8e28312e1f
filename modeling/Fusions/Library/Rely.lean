import Fusions.Library.Program

/-! Programs among others: what holds along a run whose steps alternate with interference, and programs
built from blocks. -/
namespace Fusions.Library
namespace Program
variable {S : Type → Type} {M ε α β σ : Type}

/-- What others may do between two steps, and what is asked at a mark. -/
structure Rely (M σ : Type) where
  interferes : σ → σ → Prop
  marked : M → σ → Prop
  refl : ∀ s, interferes s s
  trans : ∀ s t u, interferes s t → interferes t u → interferes s u

section
variable (handle : {β : Type} → S β → σ → Except ε (β × σ)) (R : Rely M σ)

/-- Every run of `p` from `s` among others meets what is asked at its marks, and `post` where it ends. -/
def Withstands (post : α → σ → Prop) : Program S M ε α → σ → Prop
  | .done a, s => ∀ t, R.interferes s t → post a t
  | .fail _, _ => True
  | .diverge, _ => True
  | .mark m p, s => ∀ t, R.interferes s t → R.marked m t ∧ p.Withstands post t
  | .exec q next, s => ∀ t, R.interferes s t → ∀ b t', handle q t = .ok (b, t') → (next b).Withstands post t'

end

/-- Every mark of the program is of the kind `P`. -/
def Marks (P : M → Prop) : Program S M ε α → Prop
  | .done _ => True
  | .fail _ => True
  | .diverge => True
  | .mark m p => P m ∧ p.Marks P
  | .exec _ next => ∀ b, (next b).Marks P

namespace Withstands
variable {handle : {β : Type} → S β → σ → Except ε (β × σ)} {R : Rely M σ} {post post' : α → σ → Prop}
  {p : Program S M ε α} {s t : σ}

theorem interferes (h : p.Withstands handle R post s) (hst : R.interferes s t) : p.Withstands handle R post t := by
  cases p with
  | fail | diverge => trivial
  | done => exact fun u htu => h u (R.trans _ _ _ hst htu)
  | mark => exact fun u htu => h u (R.trans _ _ _ hst htu)
  | exec => exact fun u htu => h u (R.trans _ _ _ hst htu)

theorem mono (h : p.Withstands handle R post s) (hpost : ∀ a t, post a t → post' a t) :
    p.Withstands handle R post' s := by
  induction p generalizing s with
  | fail | diverge => trivial
  | done => exact fun t hst => hpost _ _ (h t hst)
  | mark m p ih => exact fun t hst => ⟨(h t hst).1, ih (h t hst).2⟩
  | exec q next ih => exact fun t hst b t' hq => ih b (h t hst b t' hq)

/-- What withstands the others up to the end of `p`, and from there on, withstands them throughout. -/
theorem bind {post : β → σ → Prop} {f : α → Program S M ε β}
    (h : p.Withstands handle R (fun a t => (f a).Withstands handle R post t) s) :
    (p >>= f).Withstands handle R post s := by
  show (p.bind f).Withstands handle R post s
  induction p generalizing s with
  | fail | diverge => trivial
  | done a => exact h s (R.refl s)
  | mark m p ih => exact fun t hst => ⟨(h t hst).1, ih (h t hst).2⟩
  | exec q next ih => exact fun t hst b t' hq => ih b (h t hst b t' hq)

theorem andThen {post' : β → σ → Prop} {f : α → Program S M ε β} (h : p.Withstands handle R post s)
    (hf : ∀ a t, post a t → (f a).Withstands handle R post' t) : (p >>= f).Withstands handle R post' s :=
  (h.mono hf).bind

theorem stmt {q : S β} {post : β → σ → Prop}
    (h : ∀ t, R.interferes s t → ∀ b t', handle q t = .ok (b, t') → ∀ u, R.interferes t' u → post b u) :
    (Program.stmt q : Program S M ε β).Withstands handle R post s := h

theorem ofExcept {x : Except ε α} (h : ∀ a, x = .ok a → ∀ t, R.interferes s t → post a t) :
    (Program.ofExcept x : Program S M ε α).Withstands handle R post s := by
  cases x with
  | ok a => exact h a rfl
  | error e => trivial

end Withstands

/-- Programs put together from blocks, with marks of the kind `marks`. -/
inductive BuiltFrom (block : ∀ γ : Type, Program S M ε γ → Prop) (marks : M → Prop) :
    ∀ {α : Type}, Program S M ε α → Prop where
  | done {α : Type} (a : α) : BuiltFrom block marks (.done a)
  | fail {α : Type} (e : ε) : BuiltFrom block marks (.fail e : Program S M ε α)
  | diverge {α : Type} : BuiltFrom block marks (.diverge : Program S M ε α)
  | mark {α : Type} {m : M} {p : Program S M ε α} :
      marks m → BuiltFrom block marks p → BuiltFrom block marks (.mark m p)
  | block {α : Type} {p : Program S M ε α} : block α p → BuiltFrom block marks p
  | bind {α β : Type} {p : Program S M ε α} {f : α → Program S M ε β} :
      BuiltFrom block marks p → (∀ a, BuiltFrom block marks (f a)) → BuiltFrom block marks (p >>= f)

/-- Each statement may ask about the answer to the one right before it. -/
def Chained {κ : Type} (answer : ∀ {β : Type}, S β → β → κ) (asks : ∀ {β : Type}, S β → κ → Prop) :
    κ → Program S M ε α → Prop
  | k, .mark _ p => p.Chained answer asks k
  | k, .exec q next => asks q k ∧ ∀ b, (next b).Chained answer asks (answer q b)
  | _, _ => True

namespace Marks
variable {P : M → Prop} {p : Program S M ε α}

theorem stmt (q : S α) : (Program.stmt q : Program S M ε α).Marks P := fun _ => trivial

theorem bind {f : α → Program S M ε β} (hp : p.Marks P) (hf : ∀ a, (f a).Marks P) :
    (p >>= f).Marks P := by
  show (p.bind f).Marks P
  induction p with
  | done a => exact hf a
  | fail | diverge => trivial
  | mark m p ih => exact ⟨hp.1, ih hp.2⟩
  | exec q next ih => exact fun b => ih b (hp b)

/-- What every statement keeps among others, and every mark asks for, the whole program keeps. -/
theorem withstands {handle : {β : Type} → S β → σ → Except ε (β × σ)} {R : Rely M σ} {I : σ → Prop} {s : σ}
    (hI : ∀ s t, R.interferes s t → I s → I t)
    (hstmt : ∀ {β : Type} (q : S β) {s t : σ} {b : β}, I s → handle q s = .ok (b, t) → I t)
    (hmark : ∀ m s, P m → I s → R.marked m s) (h : p.Marks P) (hs : I s) :
    p.Withstands handle R (fun _ t => I t) s := by
  induction p generalizing s with
  | done => exact fun t hst => hI s t hst hs
  | fail | diverge => trivial
  | mark m p ih =>
    intro t hst
    have ht := hI s t hst hs
    exact ⟨hmark m t h.1 ht, ih h.2 ht⟩
  | exec q next ih => exact fun t hst b t' hq => ih b (h b) (hstmt q (hI s t hst hs) hq)

end Marks

namespace BuiltFrom
variable {block : ∀ γ : Type, Program S M ε γ → Prop} {marks : M → Prop} {p q : Program S M ε α}

theorem pure (a : α) : (Pure.pure a : Program S M ε α).BuiltFrom block marks := .done a

theorem ofExcept (x : Except ε α) : (Program.ofExcept x : Program S M ε α).BuiltFrom block marks := by
  cases x with
  | ok a => exact .done a
  | error e => exact .fail e

theorem ite {c : Prop} [Decidable c] (hp : p.BuiltFrom block marks) (hq : q.BuiltFrom block marks) :
    (if c then p else q).BuiltFrom block marks := by
  split
  · exact hp
  · exact hq

theorem whenever {p : Program S M ε Unit} (c : Bool) (h : p.BuiltFrom block marks) :
    (Program.whenever c p).BuiltFrom block marks :=
  ite h (pure ())

theorem forM {f : β → Program S M ε PUnit} (xs : List β) (h : ∀ x, (f x).BuiltFrom block marks) :
    (xs.forM f).BuiltFrom block marks := by
  induction xs with
  | nil => exact pure _
  | cons x xs ih => exact .bind (h x) fun _ => ih

/-- A program has its own marks and those of its blocks. -/
theorem marked (hblock : ∀ {γ : Type} (q : Program S M ε γ), block γ q → q.Marks marks)
    (h : p.BuiltFrom block marks) : p.Marks marks := by
  induction h with
  | done | fail | diverge => trivial
  | mark hm _ ih => exact ⟨hm, ih⟩
  | block hq => exact hblock _ hq
  | bind _ _ ihp ihf => exact ihp.bind ihf

/-- What every block keeps among others, and every mark asks for, the program keeps. -/
theorem keeps {handle : {β : Type} → S β → σ → Except ε (β × σ)} {R : Rely M σ} {I : σ → Prop} {s : σ}
    (hI : ∀ s t, R.interferes s t → I s → I t)
    (hblock : ∀ {γ : Type} (q : Program S M ε γ), block γ q → ∀ s, I s → q.Withstands handle R (fun _ t => I t) s)
    (hmark : ∀ m s, marks m → I s → R.marked m s) (h : p.BuiltFrom block marks) (hs : I s) :
    p.Withstands handle R (fun _ t => I t) s := by
  induction h generalizing s with
  | done => exact fun t hst => hI s t hst hs
  | fail | diverge => trivial
  | mark hm _ ih => exact fun t hst => ⟨hmark _ t hm (hI s t hst hs), ih (hI s t hst hs)⟩
  | block hq => exact hblock _ hq s hs
  | bind _ _ ihp ihf => exact (ihp hs).andThen fun a t ht => ihf a ht

end BuiltFrom

namespace Chained
variable {κ : Type} {answer : ∀ {β : Type}, S β → β → κ} {asks : ∀ {β : Type}, S β → κ → Prop}
  {p : Program S M ε α}

theorem bind {f : α → Program S M ε β} {k : κ} (hp : p.Chained answer asks k)
    (hf : ∀ a k, (f a).Chained answer asks k) : (p >>= f).Chained answer asks k := by
  show (p.bind f).Chained answer asks k
  induction p generalizing k with
  | done a => exact hf a k
  | fail | diverge => trivial
  | mark m p ih => exact ih hp
  | exec q next ih => exact ⟨hp.1, fun b => ih b (hp.2 b)⟩

/-- A program whose blocks ask about nothing before them. -/
theorem of_built {block : ∀ γ : Type, Program S M ε γ → Prop} {marks : M → Prop}
    (h : p.BuiltFrom block marks)
    (hblock : ∀ {γ : Type} (q : Program S M ε γ), block γ q → ∀ k, q.Chained answer asks k) (k : κ) :
    p.Chained answer asks k := by
  induction h generalizing k with
  | done | fail | diverge => trivial
  | mark _ _ ih => exact ih k
  | block hq => exact hblock _ hq k
  | bind _ _ ihp ihf => exact (ihp k).bind fun a => ihf a

end Chained
end Program
end Fusions.Library
