import Mathlib.Data.List.Nodup

/-! Row versions: a table seen through the uncommitted rows of one transaction. -/
namespace Fusions.Library
variable {α κ : Type} [BEq κ]

/-- The table with the transaction's own versions in place, and its own new rows after them. -/
def overlay (key : α → κ) (own base : List α) : List α :=
  base.map (fun x => (own.find? fun y => key y == key x).getD x) ++
    own.filter fun y => !base.any fun x => key x == key y

/-- Two transactions hold no row in common. -/
def Apart (key : α → κ) (own other : List α) : Bool :=
  own.all fun x => other.all fun y => key x != key y

variable [LawfulBEq κ] {key : α → κ} {own other base : List α} {x y : α}

theorem apart_iff : Apart key own other = true ↔ ∀ x ∈ own, ∀ y ∈ other, key x ≠ key y := by
  simp [Apart]

/-- The version that stands for a row has its key. -/
private theorem key_version (own : List α) (x : α) :
    key ((own.find? fun y => key y == key x).getD x) = key x := by
  cases h : own.find? fun y => key y == key x with
  | none => rfl
  | some y => simpa using List.find?_some h

private theorem version_eq (hown : (own.map key).Nodup) (hy : y ∈ own) (hkey : key y = key x) :
    (own.find? fun z => key z == key x).getD x = y := by
  cases h : own.find? fun z => key z == key x with
  | none => exact absurd (List.find?_eq_none.1 h y hy) (by simpa using hkey)
  | some z =>
    refine List.inj_on_of_nodup_map hown (List.mem_of_find?_eq_some h) hy ?_
    have hz : key z = key x := by simpa using List.find?_some h
    rw [hz, hkey]

private theorem version_self (h : ∀ y ∈ own, key y ≠ key x) :
    (own.find? fun z => key z == key x).getD x = x := by
  rw [List.find?_eq_none.2 fun y hy => by simpa using h y hy]
  rfl

/-- The table shows the transaction's own rows, and the others as they are committed. -/
theorem mem_overlay (hown : (own.map key).Nodup) :
    y ∈ overlay key own base ↔ y ∈ own ∨ y ∈ base ∧ ∀ z ∈ own, key z ≠ key y := by
  simp only [overlay, List.mem_append, List.mem_map, List.mem_filter, Bool.not_eq_true',
    List.any_eq_false, beq_iff_eq]
  constructor
  · rintro (⟨x, hx, rfl⟩ | ⟨hy, -⟩)
    · by_cases hheld : ∃ z ∈ own, key z = key x
      · obtain ⟨z, hz, hkey⟩ := hheld
        rw [version_eq hown hz hkey]
        exact .inl hz
      · have hfree : ∀ z ∈ own, key z ≠ key x := fun z hz hkey => hheld ⟨z, hz, hkey⟩
        rw [version_self hfree]
        exact .inr ⟨hx, hfree⟩
    · exact .inl hy
  · rintro (hy | ⟨hy, hfree⟩)
    · by_cases hbase : ∃ x ∈ base, key y = key x
      · obtain ⟨x, hx, hkey⟩ := hbase
        exact .inl ⟨x, hx, version_eq hown hy hkey⟩
      · exact .inr ⟨hy, fun x hx hkey => hbase ⟨x, hx, hkey.symm⟩⟩
    · exact .inl ⟨y, hy, version_self hfree⟩

/-- The keys of the table: the committed ones, and those of the new rows. -/
theorem map_key_overlay : (overlay key own base).map key =
    base.map key ++ (own.filter fun y => !base.any fun x => key x == key y).map key := by
  simp only [overlay, List.map_append, List.map_map]
  congr 1
  exact List.map_congr_left fun x _ => key_version own x

theorem nodup_overlay (hown : (own.map key).Nodup) (hbase : (base.map key).Nodup) :
    ((overlay key own base).map key).Nodup := by
  rw [map_key_overlay, List.nodup_append]
  refine ⟨hbase, hown.sublist (List.filter_sublist.map key), ?_⟩
  intro k hk l hl heq
  obtain ⟨x, hx, rfl⟩ := List.mem_map.1 hk
  obtain ⟨y, hy, rfl⟩ := List.mem_map.1 hl
  have hnew := (List.mem_filter.1 hy).2
  simp only [Bool.not_eq_true', List.any_eq_false, beq_iff_eq] at hnew
  exact hnew x hx heq

/-- Every committed row is there, as it is or in the transaction's own version. -/
theorem exists_overlay (hx : x ∈ base) : ∃ y ∈ overlay key own base, key y = key x :=
  ⟨_, List.mem_append_left _ (List.mem_map_of_mem hx), key_version own x⟩

/-- Where the committed versions of the transaction's rows do not count, its own rows count on top of the
committed ones. -/
theorem countP_overlay {p : α → Bool} (hown : (own.map key).Nodup) (hbase : (base.map key).Nodup)
    (h : ∀ y ∈ own, ∀ x ∈ base, key y = key x → p x = false) :
    (overlay key own base).countP p = own.countP p + base.countP p := by
  have hright : (own ++ base.filter fun x => own.all fun z => key z != key x).Nodup := by
    refine List.nodup_append.2 ⟨hown.of_map, hbase.of_map.filter _, ?_⟩
    rintro y hy x hx rfl
    simpa using List.all_eq_true.1 (List.mem_filter.1 hx).2 y hy
  have hperm : (overlay key own base).Perm (own ++ base.filter fun x => own.all fun z => key z != key x) :=
    (List.perm_ext_iff_of_nodup (nodup_overlay hown hbase).of_map hright).2 fun x => by
      rw [mem_overlay hown]
      simp
  rw [hperm.countP_eq, List.countP_append, List.countP_filter]
  congr 1
  refine List.countP_congr fun x hx => ?_
  simp only [Bool.and_eq_true, and_iff_left_iff_imp]
  refine fun hp => List.all_eq_true.2 fun y hy => ?_
  have hne : key y ≠ key x := fun hkey => by simp [h y hy x hx hkey] at hp
  simpa using hne

end Fusions.Library
