import Mathlib.Init

/-! JSON values as the engine reads and writes them: event payloads, contexts, outbox payloads. -/
namespace Fusions.Hetuflow

/-- `serde_json::Value`. An integer is a `num`; any other number keeps its text. -/
inductive Json where
  | null
  | bool (b : Bool)
  | num (n : Int)
  | decimal (text : String)
  | str (s : String)
  | arr (items : List Json)
  | obj (fields : List (String × Json))
  deriving Repr, Inhabited

namespace Json

/-- `Value::get` with a key. -/
def get (j : Json) (key : String) : Option Json :=
  match j with
  | .obj fields => fields.lookup key
  | _ => none

def asStr : Json → Option String
  | .str s => some s
  | _ => none

def asI64 : Json → Option Int
  | .num n => some n
  | _ => none

def asObject : Json → Option (List (String × Json))
  | .obj fields => some fields
  | _ => none

/-- `json!` of an optional string. -/
def ofOption : Option String → Json
  | some s => .str s
  | none => .null

/-- `Map::insert`: an existing key keeps its place and takes the new value. -/
def insert (fields : List (String × Json)) (key : String) (value : Json) : List (String × Json) :=
  if fields.any (·.1 == key) then fields.map fun f => if f.1 == key then (key, value) else f
  else fields ++ [(key, value)]

/-- `jsonb || jsonb`: two objects merge, the right one winning; anything else concatenates as
arrays, a value that is no array standing for the array of itself. -/
def concat (a b : Json) : Json :=
  match a, b with
  | .obj f, .obj g => .obj (g.foldl (fun acc kv => insert acc kv.1 kv.2) f)
  | .arr x, .arr y => .arr (x ++ y)
  | .arr x, y => .arr (x ++ [y])
  | x, .arr y => .arr (x :: y)
  | x, y => .arr [x, y]

@[simp] theorem asStr_null : null.asStr = none := rfl

@[simp] theorem asStr_str (s : String) : (str s).asStr = some s := rfl

@[simp] theorem asI64_num (n : Int) : (num n).asI64 = some n := rfl

@[simp] theorem asStr_ofOption (s : Option String) : (ofOption s).asStr = s := by
  cases s <;> rfl

variable {fields : List (String × Json)} {key : String} {value : Json}

theorem lookup_cons_eq (name : String) (value : Json) (k : String) :
    ((name, value) :: fields).lookup k = if k = name then some value else fields.lookup k := by
  by_cases hk : k = name
  · simp [hk]
  · have hother : (k == name) = false := by simpa using hk
    simp [List.lookup_cons, hk, hother]

theorem any_key_iff : (fields.any fun f => f.1 == key) = true ↔ (fields.lookup key).isSome = true := by
  rw [List.lookup_isSome_iff, List.any_eq_true]
  simp only [beq_iff_eq]
  exact exists_congr fun f => and_congr_right fun _ => eq_comm

/-- Among distinct keys, an entry is what its key stands for. -/
theorem lookup_eq_of_mem (hnodup : (fields.map Prod.fst).Nodup) (h : (key, value) ∈ fields) :
    fields.lookup key = some value := by
  induction fields with
  | nil => cases h
  | cons field fields ih =>
    obtain ⟨name, old⟩ := field
    obtain ⟨hnew, hnodup⟩ := List.nodup_cons.1 hnodup
    rw [lookup_cons_eq]
    rcases List.mem_cons.1 h with heq | h
    · obtain ⟨rfl, rfl⟩ := Prod.mk.inj heq
      exact if_pos rfl
    · have hne : key ≠ name := fun heq => hnew (List.mem_map.2 ⟨_, h, heq⟩)
      rw [if_neg hne, ih hnodup h]

theorem lookup_eq_none_of_notMem (h : key ∉ fields.map Prod.fst) : fields.lookup key = none := by
  induction fields with
  | nil => rfl
  | cons field fields ih =>
    rw [List.map_cons, List.mem_cons, not_or] at h
    rw [lookup_cons_eq, if_neg h.1, ih h.2]

theorem lookup_insert (k : String) :
    (insert fields key value).lookup k = if k = key then some value else fields.lookup k := by
  have hreplaced : (fields.map fun f => if f.1 = key then (key, value) else f).lookup k =
      if k = key then (fields.lookup key).map fun _ => value else fields.lookup k := by
    induction fields with
    | nil => simp
    | cons f fs ih =>
      obtain ⟨name, old⟩ := f
      by_cases hname : name = key
      · by_cases hk : k = key <;> simp [hname, hk, lookup_cons_eq, ih]
      · have hother : key ≠ name := Ne.symm hname
        by_cases hk : k = key
        · simp only [hk, if_true] at ih
          simp [hname, hk, lookup_cons_eq, ih, hother]
        · simp [hname, hk, lookup_cons_eq, ih]
  unfold insert
  simp only [beq_iff_eq]
  split
  · next hany =>
    obtain ⟨old, hold⟩ := Option.isSome_iff_exists.1 (any_key_iff.1 hany)
    simp [hreplaced, hold]
  · next hany =>
    have hfresh : fields.lookup key = none := Option.not_isSome_iff_eq_none.1 (mt any_key_iff.2 hany)
    rw [List.lookup_append, lookup_cons_eq]
    by_cases hk : k = key <;> simp [hk, hfresh]

theorem insert_of_not_mem (h : key ∉ fields.map Prod.fst) : insert fields key value = fields ++ [(key, value)] := by
  rw [insert, if_neg]
  rw [List.any_eq_true]
  rintro ⟨entry, hentry, heq⟩
  exact h (List.mem_map.2 ⟨entry, hentry, beq_iff_eq.1 heq⟩)

end Json
end Fusions.Hetuflow
