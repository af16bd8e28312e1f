import Mathlib.Data.List.Nodup
import Mathlib.Data.List.Sort
import Mathlib.Data.String.Basic
import Fusions.Hetuflow.Core.JsonText

/-! `canonical_json`, the text a definition is hashed by: it is the plain text of the value with sorted keys, and
tells a value up to the order of its keys. -/
namespace Fusions.Hetuflow
open Library

mutual

/-- Keys sorted at every level; scalars as `to_string` has them. -/
def canonicalJson : Json → String
  | .obj fields =>
    let sorted := (canonicalFields fields).mergeSort fun f g => f.1 ≤ g.1
    "\x7b" ++ ",".intercalate (sorted.map fun f => Json.quoted f.1 ++ ":" ++ f.2) ++ "\x7d"
  | .arr items => "[" ++ ",".intercalate (canonicalItems items) ++ "]"
  | other => other.text

def canonicalItems : List Json → List String
  | [] => []
  | item :: items => canonicalJson item :: canonicalItems items

def canonicalFields : List (String × Json) → List (String × String)
  | [] => []
  | (key, value) :: fields => (key, canonicalJson value) :: canonicalFields fields

end

namespace Json

/-- Equality of objects as key/value maps, at every level. -/
inductive Same : Json → Json → Prop where
  | null : Same .null .null
  | bool (b : Bool) : Same (.bool b) (.bool b)
  | num (n : Int) : Same (.num n) (.num n)
  | decimal (text : String) : Same (.decimal text) (.decimal text)
  | str (s : String) : Same (.str s) (.str s)
  | arr {xs ys : List Json} : xs.length = ys.length → (∀ p ∈ xs.zip ys, Same p.1 p.2) → Same (.arr xs) (.arr ys)
  | obj {f g : List (String × Json)} : (∀ key, key ∈ f.map Prod.fst ↔ key ∈ g.map Prod.fst) →
      (∀ key v w, (key, v) ∈ f → (key, w) ∈ g → Same v w) → Same (.obj f) (.obj g)

mutual

/-- The same value with the keys of every object sorted. -/
def sorted : Json → Json
  | .obj fields => .obj ((sortedFields fields).mergeSort fun f g => f.1 ≤ g.1)
  | .arr items => .arr (sortedItems items)
  | other => other

def sortedItems : List Json → List Json
  | [] => []
  | item :: items => item.sorted :: sortedItems items

def sortedFields : List (String × Json) → List (String × Json)
  | [] => []
  | (key, value) :: fields => (key, value.sorted) :: sortedFields fields

end

theorem sortedItems_eq (items : List Json) : sortedItems items = items.map sorted := by
  induction items with
  | nil => rfl
  | cons item items ih => rw [sortedItems, ih, List.map_cons]

theorem sortedFields_eq (fields : List (String × Json)) :
    sortedFields fields = fields.map fun f => (f.1, f.2.sorted) := by
  induction fields with
  | nil => rfl
  | cons f fields ih =>
    obtain ⟨key, value⟩ := f
    rw [sortedFields, ih, List.map_cons]

theorem sortedFields_keys (fields : List (String × Json)) :
    (sortedFields fields).map Prod.fst = fields.map Prod.fst := by
  simp [sortedFields_eq, Function.comp_def]

theorem mem_sortedFields {fields : List (String × Json)} {key : String} {j : Json} :
    (key, j) ∈ sortedFields fields ↔ ∃ v, (key, v) ∈ fields ∧ v.sorted = j := by
  simp [sortedFields_eq]

/-- The canonical text is the text of the value with its keys sorted. -/
theorem canonicalJson_eq (j : Json) : canonicalJson j = j.sorted.text := by
  induction j using induct with
  | scalar j harr hobj =>
    cases j with
    | arr items => exact absurd rfl (harr items)
    | obj fields => exact absurd rfl (hobj fields)
    | null | bool | num | decimal | str => rfl
  | arr items ih =>
    have hitems : canonicalItems items = itemTexts (sortedItems items) := by
      rw [itemTexts_eq, sortedItems_eq, List.map_map]
      induction items with
      | nil => rfl
      | cons item items ihs =>
        obtain ⟨hitem, hitems⟩ := List.forall_mem_cons.1 ih
        rw [canonicalItems, hitem, ihs hitems, List.map_cons, Function.comp_apply]
    rw [canonicalJson, sorted, text, hitems]
  | obj fields ih =>
    have hfields : canonicalFields fields = (sortedFields fields).map fun f => (f.1, f.2.text) := by
      rw [sortedFields_eq, List.map_map]
      induction fields with
      | nil => rfl
      | cons f fields ihs =>
        obtain ⟨hf, hfields⟩ := List.forall_mem_cons.1 ih
        obtain ⟨key, value⟩ := f
        rw [canonicalFields, hf, ihs hfields, List.map_cons, Function.comp_apply]
    rw [canonicalJson, sorted, text, hfields, fieldTexts_eq]
    rw [← List.map_mergeSort (r := fun f g => decide (f.1 ≤ g.1)) (fun _ _ _ _ => rfl), List.map_map]
    rfl

theorem WellFormed.sorted {j : Json} (h : j.WellFormed) : j.sorted.WellFormed := by
  induction h with
  | null => exact .null
  | bool b => exact .bool b
  | num n => exact .num n
  | decimal htext => exact .decimal htext
  | str s => exact .str s
  | @arr items _ ih =>
    refine .arr fun item hitem => ?_
    rw [sortedItems_eq] at hitem
    obtain ⟨x, hx, rfl⟩ := List.mem_map.1 hitem
    exact ih x hx
  | @obj fields hkeys _ ih =>
    refine .obj ?_ fun f hf => ?_
    · rw [((List.mergeSort_perm _ _).map Prod.fst).nodup_iff, sortedFields_keys]
      exact hkeys
    · obtain ⟨v, hv, heq⟩ := mem_sortedFields.1 (List.mem_mergeSort.1 hf)
      rw [← heq]
      exact ih _ hv

/-- Lists of fields under distinct keys that hold the same fields are sorted alike. -/
theorem mergeSort_fields_eq {f g : List (String × Json)} (hf : (f.map Prod.fst).Nodup) (hg : (g.map Prod.fst).Nodup)
    (h : ∀ x, x ∈ f ↔ x ∈ g) :
    (f.mergeSort fun x y => x.1 ≤ y.1) = g.mergeSort fun x y => x.1 ≤ y.1 := by
  have hperm : f.Perm g := (List.perm_ext_iff_of_nodup (List.Nodup.of_map _ hf) (List.Nodup.of_map _ hg)).2 h
  have hpairwise : ∀ l : List (String × Json),
      (l.mergeSort fun x y => x.1 ≤ y.1).Pairwise fun x y => x.1 ≤ y.1 := by
    intro l
    have hsorted : (l.mergeSort fun x y => x.1 ≤ y.1).Pairwise fun x y => decide (x.1 ≤ y.1) = true :=
      List.pairwise_mergeSort
        (fun a b c hab hbc => by simpa using le_trans (of_decide_eq_true hab) (of_decide_eq_true hbc))
        (fun a b => by simpa using le_total a.1 b.1) l
    simpa using hsorted
  refine List.Perm.eq_of_pairwise ?_ (hpairwise f) (hpairwise g)
    ((List.mergeSort_perm f _).trans (hperm.trans (List.mergeSort_perm g _).symm))
  intro x y hx hy hxy hyx
  exact List.inj_on_of_nodup_map hf (List.mem_mergeSort.1 hx) ((h y).2 (List.mem_mergeSort.1 hy))
    (le_antisymm hxy hyx)

theorem Same.sorted_eq {a b : Json} (h : Same a b) (ha : a.WellFormed) (hb : b.WellFormed) : a.sorted = b.sorted := by
  induction h with
  | null | bool | num | decimal | str => rfl
  | @arr xs ys hlength _ ih =>
    cases ha with
    | arr hxs =>
    cases hb with
    | arr hys =>
    have hmap : xs.map sorted = ys.map sorted := by
      refine List.ext_getElem (by simpa using hlength) fun i hi hi' => ?_
      simp only [List.length_map] at hi hi'
      have hmem : (xs[i], ys[i]) ∈ xs.zip ys := by
        rw [← List.getElem_zip (h := by simp [hi, hi'])]
        exact List.getElem_mem _
      rw [List.getElem_map, List.getElem_map]
      exact ih _ hmem (hxs _ (List.getElem_mem _)) (hys _ (List.getElem_mem _))
    rw [sorted, sorted, sortedItems_eq, sortedItems_eq, hmap]
  | @obj f g hkeys _ ih =>
    cases ha with
    | obj hf hfields =>
    cases hb with
    | obj hg hgfields =>
    have hvalues : ∀ key v w, (key, v) ∈ f → (key, w) ∈ g → v.sorted = w.sorted := fun key v w hv hw =>
      ih key v w hv hw (hfields _ hv) (hgfields _ hw)
    have hother : ∀ {key v} {f g : List (String × Json)}, (∀ key, key ∈ f.map Prod.fst ↔ key ∈ g.map Prod.fst) →
        (key, v) ∈ f → ∃ w, (key, w) ∈ g := by
      intro key v f g hkeys hv
      obtain ⟨x, hx, rfl⟩ := List.mem_map.1 ((hkeys key).1 (List.mem_map.2 ⟨_, hv, rfl⟩))
      exact ⟨x.2, hx⟩
    have hmem : ∀ x, x ∈ sortedFields f ↔ x ∈ sortedFields g := by
      intro x
      obtain ⟨key, j⟩ := x
      rw [mem_sortedFields, mem_sortedFields]
      constructor
      · rintro ⟨v, hv, rfl⟩
        obtain ⟨w, hw⟩ := hother hkeys hv
        exact ⟨w, hw, (hvalues key v w hv hw).symm⟩
      · rintro ⟨w, hw, rfl⟩
        obtain ⟨v, hv⟩ := hother (fun key => (hkeys key).symm) hw
        exact ⟨v, hv, hvalues key v w hv hw⟩
    rw [sorted, sorted, mergeSort_fields_eq (by rwa [sortedFields_keys]) (by rwa [sortedFields_keys]) hmem]

theorem items_of_sorted_eq {xs ys : List Json} (h : (arr xs).sorted = (arr ys).sorted) :
    xs.length = ys.length ∧ ∀ p ∈ xs.zip ys, p.1.sorted = p.2.sorted := by
  rw [sorted, sorted, sortedItems_eq, sortedItems_eq, arr.injEq] at h
  refine ⟨by simpa using congrArg List.length h, fun p hp => ?_⟩
  obtain ⟨i, hi, rfl⟩ := List.mem_iff_getElem.1 hp
  have hi' : i < xs.length ∧ i < ys.length := by simpa using hi
  rw [List.getElem_zip]
  have hget := List.getElem_of_eq h (by simpa using hi'.1)
  simpa using hget

theorem fields_of_sorted_eq {f g : List (String × Json)} (h : (obj f).sorted = (obj g).sorted) :
    (sortedFields f).Perm (sortedFields g) := by
  rw [sorted, sorted, obj.injEq] at h
  have hsorted := (List.mergeSort_perm (sortedFields f) fun x y => x.1 ≤ y.1).symm
  rw [h] at hsorted
  exact hsorted.trans (List.mergeSort_perm _ _)

theorem same_of_sorted_eq {a b : Json} (h : a.sorted = b.sorted) (ha : a.WellFormed) (hb : b.WellFormed) : Same a b := by
  induction a using induct generalizing b with
  | scalar a harr hobj =>
    cases a with
    | arr items => exact absurd rfl (harr items)
    | obj fields => exact absurd rfl (hobj fields)
    | null => cases b <;> cases h; exact .null
    | bool => cases b <;> cases h; exact .bool _
    | num => cases b <;> cases h; exact .num _
    | decimal => cases b <;> cases h; exact .decimal _
    | str => cases b <;> cases h; exact .str _
  | arr xs ih =>
    cases ha with
    | arr hxs =>
    cases b with
    | arr ys =>
      cases hb with
      | arr hys =>
      obtain ⟨hlength, hall⟩ := items_of_sorted_eq h
      refine .arr hlength fun p hp => ?_
      obtain ⟨hx, hy⟩ := List.of_mem_zip hp
      exact ih _ hx (hall p hp) (hxs _ hx) (hys _ hy)
    | _ => cases h
  | obj f ih =>
    cases ha with
    | obj hf hfields =>
    cases b with
    | obj g =>
      cases hb with
      | obj hg hgfields =>
      have hperm := fields_of_sorted_eq h
      refine .obj (fun key => ?_) fun key v w hv hw => ?_
      · rw [← sortedFields_keys f, ← sortedFields_keys g]
        exact (hperm.map Prod.fst).mem_iff
      · obtain ⟨u, hu, heq⟩ := mem_sortedFields.1 (hperm.mem_iff.1 (mem_sortedFields.2 ⟨v, hv, rfl⟩))
        obtain ⟨-, rfl⟩ := Prod.mk.inj (List.inj_on_of_nodup_map hg hu hw rfl)
        exact ih _ hv heq.symm (hfields _ hv) (hgfields _ hw)
    | _ => cases h

end Json

/-- A `serde_json::Value`. -/
structure JsonValue where
  json : Json
  wellFormed : json.WellFormed

/-- Two values have one canonical text exactly when they are the same up to the order of keys. -/
theorem canonicalJson_eq_iff (a b : JsonValue) :
    canonicalJson a.json = canonicalJson b.json ↔ Json.Same a.json b.json := by
  rw [Json.canonicalJson_eq, Json.canonicalJson_eq]
  constructor
  · intro h
    have hsorted := Json.text_injective a.wellFormed.sorted b.wellFormed.sorted h
    exact Json.same_of_sorted_eq hsorted a.wellFormed b.wellFormed
  · intro h
    rw [h.sorted_eq a.wellFormed b.wellFormed]

end Fusions.Hetuflow
