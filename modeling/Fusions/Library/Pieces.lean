import Mathlib.Data.List.Forall2
import Fusions.Library.Separated

/-! What a sequence is read as when it comes in pieces that are read one by one. -/
namespace Fusions.Library

/-- `t` is what some way of cutting `s` is read as. -/
def ReadInPieces {α β : Type} (read : List α → List β) (s : List α) (t : List β) : Prop :=
  ∃ pieces : List (List α), pieces.flatten = s ∧ pieces.flatMap read = t

/-- The reading starts anew at `sep`, which is read as `sep'`. -/
structure CutAt {α β : Type} (read : List α → List β) (sep : α) (sep' : β) : Prop where
  nil : read [] = []
  cut : ∀ u v, read (u ++ sep :: v) = read u ++ sep' :: read v
  clean : ∀ u, sep ∉ u → sep' ∉ read u

section
variable {α β : Type} {read : List α → List β}

theorem ReadInPieces.whole (s : List α) : ReadInPieces read s (read s) :=
  ⟨[s], List.append_nil s, List.append_nil (read s)⟩

theorem ReadInPieces.append {u v : List α} {t w : List β} (hu : ReadInPieces read u t)
    (hv : ReadInPieces read v w) : ReadInPieces read (u ++ v) (t ++ w) := by
  obtain ⟨pieces, rfl, rfl⟩ := hu
  obtain ⟨others, rfl, rfl⟩ := hv
  exact ⟨pieces ++ others, List.flatten_append, List.flatMap_append⟩

/-- A sequence that is read element by element is read alike in all pieces. -/
theorem readInPieces_map {s : List α} {f : α → β} (hmap : ∀ u, u ⊆ s → read u = u.map f) {t : List β} :
    ReadInPieces read s t ↔ t = s.map f := by
  constructor
  · rintro ⟨pieces, rfl, rfl⟩
    rw [List.map_flatten, List.flatMap]
    refine congrArg List.flatten (List.map_congr_left fun u hu => hmap u fun x hx => ?_)
    exact List.mem_flatten.2 ⟨u, hu, hx⟩
  · rintro rfl
    rw [← hmap s fun x hx => hx]
    exact ReadInPieces.whole s

variable {sep : α} {sep' : β} (hcut : CutAt read sep sep')
include hcut

theorem CutAt.read_sep : read [sep] = [sep'] := by
  have h := hcut.cut [] []
  rwa [hcut.nil, List.nil_append, List.nil_append] at h

/-- What stands before a separator and what stands after it are read apart. -/
theorem CutAt.readInPieces_append {u v : List α} {t : List β} :
    ReadInPieces read (u ++ sep :: v) t ↔
      ∃ before after, ReadInPieces read u before ∧ ReadInPieces read v after ∧ t = before ++ sep' :: after := by
  constructor
  · rintro ⟨pieces, hflatten, rfl⟩
    induction pieces generalizing u with
    | nil => exact absurd hflatten.symm (by simp)
    | cons piece pieces ih =>
      rw [List.flatten_cons, List.append_eq_append_iff] at hflatten
      obtain ⟨u', rfl, hrest⟩ | ⟨beyond, rfl, hbeyond⟩ := hflatten
      · -- the separator comes in a later piece
        obtain ⟨before, after, hbefore, hafter, heq⟩ := ih hrest
        exact ⟨read piece ++ before, after, (ReadInPieces.whole piece).append hbefore, hafter,
          by rw [List.flatMap_cons, heq, List.append_assoc]⟩
      · cases beyond with
        | nil =>
          obtain ⟨before, after, hbefore, hafter, heq⟩ := ih (u := []) hbeyond.symm
          refine ⟨read u ++ before, after, ?_, hafter, ?_⟩
          · simpa using (ReadInPieces.whole u).append hbefore
          · rw [List.flatMap_cons, List.append_nil, heq, List.append_assoc]
        | cons x beyond =>
          -- this piece holds the separator
          obtain ⟨rfl, rfl⟩ := List.cons.inj hbeyond
          exact ⟨read u, read beyond ++ pieces.flatMap read, ReadInPieces.whole u,
            (ReadInPieces.whole beyond).append ⟨pieces, rfl, rfl⟩,
            by rw [List.flatMap_cons, hcut.cut, List.append_assoc, List.cons_append]⟩
  · rintro ⟨before, after, hbefore, hafter, rfl⟩
    have hsep : ReadInPieces read [sep] [sep'] := by
      rw [← hcut.read_sep]
      exact ReadInPieces.whole [sep]
    exact hbefore.append (hsep.append hafter)

/-- The parts between separators are read one by one. -/
theorem CutAt.readInPieces_intercalate {parts : List (List α)} {t : List β} :
    ReadInPieces read ([sep].intercalate parts) t ↔
      ∃ ts, List.Forall₂ (ReadInPieces read) parts ts ∧ t = [sep'].intercalate ts := by
  induction parts generalizing t with
  | nil =>
    have hnil : ReadInPieces read [] t ↔ t = [] := by
      refine readInPieces_map (f := fun _ => sep') fun u hu => ?_
      rw [List.subset_nil.1 hu]
      exact hcut.nil
    simpa using hnil
  | cons part parts ih =>
    cases parts with
    | nil => simp [List.forall₂_cons_left_iff]
    | cons next parts =>
      rw [List.intercalate_cons_cons, List.append_assoc, List.singleton_append, hcut.readInPieces_append]
      constructor
      · rintro ⟨before, after, hbefore, hafter, rfl⟩
        obtain ⟨ts, hts, rfl⟩ := ih.1 hafter
        refine ⟨before :: ts, .cons hbefore hts, ?_⟩
        cases hts with
        | cons hnext hrest => rw [List.intercalate_cons_cons, List.append_assoc, List.singleton_append]
      · rintro ⟨ts, hts, rfl⟩
        cases hts with
        | cons hpart hts =>
          refine ⟨_, _, hpart, ih.2 ⟨_, hts, rfl⟩, ?_⟩
          cases hts with
          | cons hnext hrest => rw [List.intercalate_cons_cons, List.append_assoc, List.singleton_append]

theorem CutAt.not_mem_of_readInPieces {s : List α} {t : List β} (h : ReadInPieces read s t) (hs : sep ∉ s) :
    sep' ∉ t := by
  obtain ⟨pieces, rfl, rfl⟩ := h
  intro hmem
  obtain ⟨piece, hpiece, hin⟩ := List.mem_flatMap.1 hmem
  exact hcut.clean piece (fun hsep => hs (List.mem_flatten.2 ⟨piece, hpiece, hsep⟩)) hin

theorem CutAt.splitOn_intercalate [DecidableEq α] [DecidableEq β] {s : List α} {ts : List (List β)}
    (h : List.Forall₂ (ReadInPieces read) (s.splitOn sep) ts) : ([sep'].intercalate ts).splitOn sep' = ts := by
  have hclean (parts : List (List α)) (us : List (List β)) (hparts : ∀ part ∈ parts, sep ∉ part)
      (hread : List.Forall₂ (ReadInPieces read) parts us) : ∀ u ∈ us, sep' ∉ u := by
    induction hread with
    | nil => exact nofun
    | cons hpart hrest ih =>
      rw [List.forall_mem_cons] at hparts ⊢
      exact ⟨hcut.not_mem_of_readInPieces hpart hparts.1, ih hparts.2⟩
  have hne : ts ≠ [] := by
    rintro rfl
    exact List.splitOn_ne_nil sep s (List.forall₂_nil_right_iff.1 h)
  exact List.splitOn_intercalate sep' (hclean _ _ (fun part hpart => not_mem_of_mem_splitOn hpart) h) hne

/-- What is read falls into what the parts are read as, each on its own. -/
theorem CutAt.exists_splitOn_iff [DecidableEq α] [DecidableEq β] {s : List α} {ts : List (List β)} :
    (∃ t, ReadInPieces read s t ∧ t.splitOn sep' = ts) ↔
      List.Forall₂ (ReadInPieces read) (s.splitOn sep) ts := by
  have hparts (t : List β) : ReadInPieces read s t ↔
      ∃ us, List.Forall₂ (ReadInPieces read) (s.splitOn sep) us ∧ t = [sep'].intercalate us := by
    rw [← hcut.readInPieces_intercalate, List.intercalate_splitOn]
  constructor
  · rintro ⟨t, ht, rfl⟩
    obtain ⟨us, hus, rfl⟩ := (hparts t).1 ht
    rwa [hcut.splitOn_intercalate hus]
  · intro h
    exact ⟨_, (hparts _).2 ⟨ts, h, rfl⟩, hcut.splitOn_intercalate h⟩

end

end Fusions.Library
