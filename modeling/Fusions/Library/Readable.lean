import Mathlib.Init

/-! Unique readability: what is written for a value tells the value and where it ends, for codes of characters,
tokens, and separated lists. -/
namespace Fusions.Library
universe u v
variable {α : Type u} {χ : Type v}

/-- What is written for `a`, followed by a rest of the kind `D`, is written for no other value of the kind `W`, and
for `a` with no other rest. -/
def ReadsBack (W : α → Prop) (D : List χ → Prop) (write : α → List χ) (a : α) : Prop :=
  ∀ b s t, W b → D s → D t → write a ++ s = write b ++ t → a = b ∧ s = t

/-- The codes of a prefix code tell their character. -/
theorem prefixCode_readsBack {code : α → List χ} (hcode : ∀ a b, code a <+: code b → a = b) {a b : α} {s t : List χ}
    (h : code a ++ s = code b ++ t) : a = b ∧ s = t := by
  have hab : a = b := by
    have hb : code b <+: code a ++ s := by
      rw [h]
      exact List.prefix_append _ _
    rcases List.prefix_or_prefix_of_prefix (List.prefix_append (code a) s) hb with hpre | hpre
    · exact hcode a b hpre
    · exact (hcode b a hpre).symm
  subst hab
  exact ⟨rfl, List.append_cancel_left h⟩

/-- Codes that tell their character, up to a stop that begins none of them. -/
theorem codes_readsBack {code : α → List χ} {stop : χ}
    (hcode : ∀ a b s t, code a ++ s = code b ++ t → a = b ∧ s = t) (hstop : ∀ a s t, code a ++ s ≠ stop :: t)
    {xs ys : List α} {s t : List χ} (h : xs.flatMap code ++ stop :: s = ys.flatMap code ++ stop :: t) :
    xs = ys ∧ s = t := by
  induction xs generalizing ys with
  | nil =>
    cases ys with
    | nil => exact ⟨rfl, (List.cons.inj h).2⟩
    | cons y ys =>
      rw [List.flatMap_cons, List.append_assoc] at h
      exact absurd h.symm (hstop _ _ _)
  | cons x xs ih =>
    rw [List.flatMap_cons, List.append_assoc] at h
    cases ys with
    | nil => exact absurd h (hstop _ _ _)
    | cons y ys =>
      rw [List.flatMap_cons, List.append_assoc] at h
      obtain ⟨hxy, hrest⟩ := hcode _ _ _ _ h
      obtain ⟨hxs, hst⟩ := ih hrest
      exact ⟨by rw [hxy, hxs], hst⟩

/-- A token ends where the characters of its kind do. -/
theorem token_readsBack {c : χ → Bool} {u v s t : List χ} (hu : ∀ x ∈ u, c x = true) (hv : ∀ x ∈ v, c x = true)
    (hs : ∀ x ∈ s.head?, c x = false) (ht : ∀ x ∈ t.head?, c x = false) (h : u ++ s = v ++ t) : u = v ∧ s = t := by
  have hleft : ∀ (w r : List χ), (∀ x ∈ w, c x = true) → (∀ x ∈ r.head?, c x = false) →
      (w ++ r).takeWhile c = w := by
    intro w r hw hr
    rw [List.takeWhile_append_of_pos hw]
    cases r with
    | nil => simp
    | cons x r => simp [hr x rfl]
  have huv : u = v := by rw [← hleft u s hu hs, h, hleft v t hv ht]
  exact ⟨huv, List.append_cancel_left (by rw [h, huv])⟩

/-- The first separator tells what is before it and after it. -/
theorem first_readsBack {sep : χ} {u v s t : List χ} (hu : sep ∉ u) (hv : sep ∉ v)
    (h : u ++ sep :: s = v ++ sep :: t) : u = v ∧ s = t := by
  induction u generalizing v with
  | nil =>
    cases v with
    | nil => exact ⟨rfl, (List.cons.inj h).2⟩
    | cons y v => exact absurd (by rw [(List.cons.inj h).1]; exact List.mem_cons_self) hv
  | cons x u ih =>
    cases v with
    | nil => exact absurd (by rw [← (List.cons.inj h).1]; exact List.mem_cons_self) hu
    | cons y v =>
      obtain ⟨hxy, hrest⟩ := List.cons.inj h
      obtain ⟨huv, hst⟩ := ih (fun hmem => hu (List.mem_cons_of_mem _ hmem))
        (fun hmem => hv (List.mem_cons_of_mem _ hmem)) hrest
      exact ⟨by rw [hxy, huv], hst⟩

/-- So does the last one. -/
theorem last_readsBack {sep : χ} {u v s t : List χ} (hs : sep ∉ s) (ht : sep ∉ t)
    (h : u ++ sep :: s = v ++ sep :: t) : u = v ∧ s = t := by
  have hrev := congrArg List.reverse h
  simp only [List.reverse_append, List.reverse_cons, List.append_assoc, List.singleton_append] at hrev
  obtain ⟨hst, huv⟩ := first_readsBack (fun hmem => hs (List.mem_reverse.1 hmem))
    (fun hmem => ht (List.mem_reverse.1 hmem)) hrev
  exact ⟨List.reverse_inj.1 huv, List.reverse_inj.1 hst⟩

section
variable {W : α → Prop} {D : List χ → Prop} {write : α → List χ} {sep stop : χ}

/-- What follows an element of a list that is closed by `stop`. -/
private def following (sep stop : χ) (write : α → List χ) : List α → List χ → List χ
  | [], s => stop :: s
  | xs, s => sep :: ([sep].intercalate (xs.map write) ++ stop :: s)

private theorem intercalate_following (x : α) (xs : List α) (s : List χ) :
    [sep].intercalate ((x :: xs).map write) ++ stop :: s = write x ++ following sep stop write xs s := by
  cases xs with
  | nil => simp [following]
  | cons y ys => simp [following]

/-- A separated list is read back element by element. -/
theorem list_readsBack (hne : sep ≠ stop) (hsep : ∀ s, D (sep :: s)) (hstop : ∀ s, D (stop :: s))
    (hstart : ∀ a s t, W a → write a ++ s ≠ stop :: t) {xs ys : List α}
    (hread : ∀ x ∈ xs, ReadsBack W D write x) (hxs : ∀ x ∈ xs, W x) (hys : ∀ y ∈ ys, W y) {s t : List χ}
    (h : [sep].intercalate (xs.map write) ++ stop :: s = [sep].intercalate (ys.map write) ++ stop :: t) :
    xs = ys ∧ s = t := by
  have hD : ∀ zs r, D (following sep stop write zs r) := by
    intro zs r
    cases zs with
    | nil => exact hstop r
    | cons z zs => exact hsep _
  induction xs generalizing ys with
  | nil =>
    cases ys with
    | nil => exact ⟨rfl, (List.cons.inj h).2⟩
    | cons y ys =>
      rw [intercalate_following] at h
      exact absurd h.symm (hstart _ _ _ (hys y (List.mem_cons_self ..)))
  | cons x xs ih =>
    obtain ⟨hx, hread⟩ := List.forall_mem_cons.1 hread
    obtain ⟨hWx, hxs⟩ := List.forall_mem_cons.1 hxs
    rw [intercalate_following] at h
    cases ys with
    | nil => exact absurd h (hstart _ _ _ hWx)
    | cons y ys =>
      obtain ⟨hWy, hys⟩ := List.forall_mem_cons.1 hys
      rw [intercalate_following] at h
      obtain ⟨hxy, hrest⟩ := hx y _ _ hWy (hD _ _) (hD _ _) h
      have htail : xs = ys ∧ s = t := by
        cases xs with
        | nil =>
          cases ys with
          | nil => exact ⟨rfl, (List.cons.inj hrest).2⟩
          | cons z ys => exact absurd (List.cons.inj hrest).1.symm hne
        | cons z xs =>
          cases ys with
          | nil => exact absurd (List.cons.inj hrest).1 hne
          | cons w ys => exact ih hread hxs hys (List.cons.inj hrest).2
      exact ⟨by rw [hxy, htail.1], htail.2⟩

end
end Fusions.Library
