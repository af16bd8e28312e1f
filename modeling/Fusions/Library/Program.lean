import Mathlib.Init

/-! Statement programs: sequences of store statements with arbitrary control flow between them.
One syntax serves both readings, the sequential run and the interleaving of several programs. -/
namespace Fusions.Library

/-- A program over statements `S`, failing with `ε`. `diverge` is a call that never returns;
`mark` names a point of the program and reads and writes nothing. -/
inductive Program (S : Type → Type) (M ε α : Type) : Type 1 where
  | done (a : α)
  | fail (e : ε)
  | diverge
  | mark (m : M) (next : Program S M ε α)
  | exec {β : Type} (q : S β) (next : β → Program S M ε α)

/-- How a call ends: with a value, with an error (nothing is kept), or not at all. -/
inductive Outcome (ε α : Type) where
  | ok (a : α)
  | error (e : ε)
  | diverge

/-- The state a call leaves when it returns. -/
def Outcome.final {ε α σ : Type} : Outcome ε (α × σ) → Option σ
  | .ok (_, s) => some s
  | _ => none

/-- How a call ends, without the state. -/
def Outcome.value {ε α σ : Type} : Outcome ε (α × σ) → Outcome ε α
  | .ok (a, _) => .ok a
  | .error e => .error e
  | .diverge => .diverge

theorem Outcome.of_final {ε α σ : Type} {o : Outcome ε (α × σ)} {s : σ} (h : o.final = some s) :
    ∃ a, o = .ok (a, s) := by
  match o, h with
  | .ok (a, _), rfl => exact ⟨a, rfl⟩

/-- Go on with the value and the state of a call that returned. -/
def Outcome.andThen {ε α β σ : Type} (o : Outcome ε (α × σ)) (next : α → σ → Outcome ε β) : Outcome ε β :=
  match o with
  | .ok (a, s) => next a s
  | .error e => .error e
  | .diverge => .diverge

namespace Program
variable {S : Type → Type} {M ε α β γ σ : Type}

protected def bind : Program S M ε α → (α → Program S M ε β) → Program S M ε β
  | .done a, f => f a
  | .fail e, _ => .fail e
  | .diverge, _ => .diverge
  | .mark m p, f => .mark m (p.bind f)
  | .exec q next, f => .exec q fun b => (next b).bind f

instance : Monad (Program S M ε) where
  pure := .done
  bind := Program.bind

/-- One statement as a program. -/
def stmt (q : S β) : Program S M ε β := .exec q .done

/-- A pure computation that may fail, used as a step of a program (`?`). -/
def ofExcept : Except ε α → Program S M ε α
  | .ok a => .done a
  | .error e => .fail e

/-- `if c { p }`. -/
def whenever (c : Bool) (p : Program S M ε Unit) : Program S M ε Unit :=
  if c then p else pure ()

/-- The program without its result. -/
def forget (p : Program S M ε α) : Program S M ε Unit := p >>= fun _ => pure ()

/-- The sequential run: every statement is handled at once, and an error ends the call. -/
def run (handle : {β : Type} → S β → σ → Except ε (β × σ)) :
    Program S M ε α → σ → Outcome ε (α × σ)
  | .done a, s => .ok (a, s)
  | .fail e, _ => .error e
  | .diverge, _ => .diverge
  | .mark _ p, s => p.run handle s
  | .exec q next, s =>
    match handle q s with
    | .ok (b, s') => (next b).run handle s'
    | .error e => .error e

section
-- makes the equations before the lemmas that all ask for them
attribute [local simp] run Program.bind
end

variable (handle : {β : Type} → S β → σ → Except ε (β × σ))

/-- `p` returns `a` from `s` and leaves `s'`. -/
def Returns (p : Program S M ε α) (s : σ) (a : α) (s' : σ) : Prop :=
  p.run handle s = .ok (a, s')

@[simp] theorem returns_pure (a b : α) (s s' : σ) :
    Returns handle (pure a : Program S M ε α) s b s' ↔ b = a ∧ s' = s := by
  simp only [Returns, pure, run, Outcome.ok.injEq, Prod.mk.injEq]
  exact and_congr eq_comm eq_comm

@[simp] theorem returns_fail (e : ε) (a : α) (s s' : σ) :
    ¬ Returns handle (.fail e : Program S M ε α) s a s' := by
  simp [Returns, run]

@[simp] theorem returns_ofExcept (x : Except ε α) (a : α) (s s' : σ) :
    Returns handle (ofExcept x : Program S M ε α) s a s' ↔ x = .ok a ∧ s' = s := by
  cases x with
  | ok b =>
    simp only [ofExcept, Returns, run, Outcome.ok.injEq, Prod.mk.injEq, Except.ok.injEq]
    exact and_congr_right fun _ => eq_comm
  | error e => simp [ofExcept, Returns, run]

@[simp] theorem returns_diverge (a : α) (s s' : σ) :
    ¬ Returns handle (.diverge : Program S M ε α) s a s' := by
  simp [Returns, run]

@[simp] theorem returns_mark (m : M) (p : Program S M ε α) (a : α) (s s' : σ) :
    Returns handle (.mark m p) s a s' ↔ Returns handle p s a s' := Iff.rfl

@[simp] theorem returns_stmt (q : S β) (b : β) (s s' : σ) :
    Returns handle (stmt q : Program S M ε β) s b s' ↔ handle q s = .ok (b, s') := by
  simp only [Returns, stmt, run]
  cases handle q s with
  | ok r => simp [Prod.ext_iff]
  | error e => simp

theorem returns_ite (c : Prop) [Decidable c] (p q : Program S M ε α) (a : α) (s s' : σ) :
    Returns handle (if c then p else q) s a s' ↔
      (c ∧ Returns handle p s a s') ∨ (¬ c ∧ Returns handle q s a s') := by
  by_cases h : c <;> simp [h]

theorem returns_whenever (c : Bool) (p : Program S M ε Unit) (u : Unit) (s s' : σ) :
    Returns handle (whenever c p) s u s' ↔
      (c = true ∧ Returns handle p s u s') ∨ (c = false ∧ s' = s) := by
  cases c with
  | false => simp [whenever]
  | true => simp [whenever]

/-- A sequence returns exactly when both parts return, in order. -/
@[simp] theorem returns_bind (p : Program S M ε α) (f : α → Program S M ε β) (b : β) (s s' : σ) :
    Returns handle (p >>= f) s b s' ↔
      ∃ a t, Returns handle p s a t ∧ Returns handle (f a) t b s' := by
  show (p.bind f).run handle s = .ok (b, s') ↔ _
  induction p generalizing s with
  | done a =>
    constructor
    · intro h
      exact ⟨a, s, rfl, h⟩
    · rintro ⟨a', t, ha, h⟩
      cases ha
      exact h
  | fail e => simp [Program.bind, run, Returns]
  | diverge => simp [Program.bind, run, Returns]
  | mark m p ih => exact ih s
  | exec q next ih =>
    simp only [Program.bind, run, Returns]
    cases handle q s with
    | ok r => exact ih r.1 r.2
    | error e => simp

/-- A sequence runs on from where its first part returns, and ends where that does not return. -/
theorem run_bind (p : Program S M ε α) (f : α → Program S M ε β) (s : σ) :
    (p >>= f).run handle s = (p.run handle s).andThen fun a t => (f a).run handle t := by
  show (p.bind f).run handle s = _
  induction p generalizing s with
  | done a => rfl
  | fail e => rfl
  | diverge => rfl
  | mark m p ih => exact ih s
  | exec q next ih =>
    simp only [Program.bind, run]
    cases handle q s with
    | ok r => exact ih r.1 r.2
    | error e => rfl

theorem run_of_returns {p : Program S M ε α} {f : α → Program S M ε β} {a : α} {s t : σ}
    (h : Returns handle p s a t) : (p >>= f).run handle s = (f a).run handle t := by
  rw [run_bind, h]
  rfl

/-- Sequences run alike when their first parts do, and so do their rests from wherever those return. -/
theorem run_bind_congr {h₁ h₂ : {β : Type} → S β → σ → Except ε (β × σ)} {p q : Program S M ε α}
    {f g : α → Program S M ε β} {s : σ} (hp : p.run h₁ s = q.run h₂ s)
    (hf : ∀ a t, Returns h₁ p s a t → (f a).run h₁ t = (g a).run h₂ t) :
    (p >>= f).run h₁ s = (q >>= g).run h₂ s := by
  rw [run_bind, run_bind, ← hp]
  cases hrun : p.run h₁ s with
  | ok x => exact hf x.1 x.2 hrun
  | error e => rfl
  | diverge => rfl

/-- Loops over a list return one element after the other. -/
@[simp] theorem returns_forM_nil (f : α → Program S M ε PUnit) (u : PUnit) (s s' : σ) :
    Returns handle (([] : List α).forM f) s u s' ↔ s' = s := by
  simp [List.forM]

@[simp] theorem returns_forM_cons (x : α) (xs : List α) (f : α → Program S M ε PUnit) (u : PUnit)
    (s s' : σ) :
    Returns handle ((x :: xs).forM f) s u s' ↔
      ∃ t, Returns handle (f x) s ⟨⟩ t ∧ Returns handle (xs.forM f) t u s' := by
  simp only [List.forM, returns_bind]
  exact ⟨fun ⟨_, t, h⟩ => ⟨t, h⟩, fun ⟨t, h⟩ => ⟨⟨⟩, t, h⟩⟩

/-- What every statement does to the state, the whole program does. -/
theorem Returns.relates {R : σ → σ → Prop} (hrefl : ∀ s, R s s) (htrans : ∀ {s t u}, R s t → R t u → R s u)
    (hstmt : ∀ {δ : Type} (q : S δ) {s s' : σ} {d : δ}, handle q s = .ok (d, s') → R s s')
    {p : Program S M ε α} {s s' : σ} {a : α} (h : Returns handle p s a s') : R s s' := by
  induction p generalizing s with
  | done b =>
    obtain ⟨-, rfl⟩ := (returns_pure handle b a s s').1 h
    exact hrefl s'
  | fail e => exact absurd h (returns_fail handle e a s s')
  | diverge => exact absurd h (returns_diverge handle a s s')
  | mark m p ih => exact ih h
  | exec q next ih =>
    simp only [Returns, run] at h
    split at h
    · next b t hq => exact htrans (hstmt q hq) (ih b h)
    · cases h

end Program
end Fusions.Library
