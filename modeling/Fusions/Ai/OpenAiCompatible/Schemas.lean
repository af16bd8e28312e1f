import Mathlib.Logic.Relation
import Mathlib.Tactic.SplitIfs
import Fusions.Hetuflow.Core.JsonText

/-! The strict schemas of the Responses wire: `add_props_false`, and the object schemas that it does not reach. -/
namespace Fusions.Ai
open Fusions.Hetuflow

/-- `is_object_schema`. -/
def isObjectSchema (fields : List (String × Json)) : Bool :=
  (fields.lookup "type").bind Json.asStr == some "object" || fields.any (·.1 == "properties")

def closedKey : String := "additionalProperties"

mutual

/-- `add_props_false`. The key goes in before the other keys are visited, and is none of them. -/
def addPropsFalse : Json → Json
  | .obj fields =>
    let visited := addPropsFalseFields fields
    .obj (if isObjectSchema fields && !fields.any (·.1 == closedKey) then visited ++ [(closedKey, .bool false)] else visited)
  | other => other

/-- The values of a schema's keys. -/
def addPropsFalseFields : List (String × Json) → List (String × Json)
  | [] => []
  | (key, value) :: fields =>
    (key,
      if key = "$defs" ∨ key = "properties" then addPropsFalseEntries value
      else if key = "items" then addPropsFalse value
      else if key = "anyOf" ∨ key = "oneOf" ∨ key = "allOf" then addPropsFalseVariants value
      else value) :: addPropsFalseFields fields

/-- The schemas that an object has by name. -/
def addPropsFalseEntries : Json → Json
  | .obj entries => .obj (addPropsFalseValues entries)
  | other => other

def addPropsFalseValues : List (String × Json) → List (String × Json)
  | [] => []
  | (name, schema) :: entries => (name, addPropsFalse schema) :: addPropsFalseValues entries

/-- The schemas that an array lists. -/
def addPropsFalseVariants : Json → Json
  | .arr variants => .arr (addPropsFalseItems variants)
  | other => other

def addPropsFalseItems : List Json → List Json
  | [] => []
  | schema :: variants => addPropsFalse schema :: addPropsFalseItems variants

end

section
-- makes the equations before the lemmas that all ask for them
attribute [local simp] addPropsFalse addPropsFalseFields addPropsFalseEntries addPropsFalseValues addPropsFalseVariants
  addPropsFalseItems
end

namespace Schema

/-- A schema under a keyword of another one: by name, as the schema of all items, or among variants. -/
inductive Child : Json → Json → Prop where
  | entry {schema sub : Json} {key name : String} {entries : List (String × Json)} :
      key = "$defs" ∨ key = "properties" → schema.get key = some (.obj entries) → (name, sub) ∈ entries →
      Child schema sub
  | items {schema sub : Json} : schema.get "items" = some sub → (∀ items, sub ≠ .arr items) → Child schema sub
  | variant {schema sub : Json} {key : String} {variants : List Json} :
      key = "anyOf" ∨ key = "oneOf" ∨ key = "allOf" → schema.get key = some (.arr variants) → sub ∈ variants →
      Child schema sub

/-- A schema in an array of schemas under `items`. -/
def Item (schema sub : Json) : Prop := ∃ items, schema.get "items" = some (.arr items) ∧ sub ∈ items

/-- The subschemas through any of the keywords, at any depth. -/
def Reaches : Json → Json → Prop := Relation.ReflTransGen fun schema sub => Child schema sub ∨ Item schema sub

/-- The subschemas that are not behind an array of items. -/
def Visits : Json → Json → Prop := Relation.ReflTransGen Child

/-- A schema of objects: its type is object, or a list of types with it, or it has properties. -/
def ObjectTyped (schema : Json) : Prop :=
  schema.get "type" = some (.str "object") ∨
  (∃ types, schema.get "type" = some (.arr types) ∧ .str "object" ∈ types) ∨
  (schema.get "properties").isSome

/-- Additional properties are said to be there, or not. -/
def Closed (schema : Json) : Prop := (schema.get closedKey).isSome

/-- Where in a value: under a key, or at an index. -/
inductive PathStep where
  | key (key : String)
  | index (index : Nat)
  deriving DecidableEq, Repr

def atPath : Json → List PathStep → Option Json
  | j, [] => some j
  | .obj fields, .key key :: path => (fields.lookup key).bind (atPath · path)
  | .arr items, .index index :: path => items[index]?.bind (atPath · path)
  | _, _ :: _ => none

/-- The same scalar, an array of the same length, or an object with the same keys, and maybe more. -/
def Kept : Json → Json → Prop
  | .arr items, after => ∃ items', after = .arr items' ∧ items'.length = items.length
  | .obj fields, after => ∃ fields' more, after = .obj fields' ∧ fields'.map Prod.fst = fields.map Prod.fst ++ more
  | scalar, after => after = scalar

/-- The object schemas that the rewriting leaves open are closed beforehand: those with a list of types and no
properties, and all that are behind an array of items. -/
def ClosedElsewhere (schema : Json) : Prop :=
  (∀ sub, Visits schema sub → (∃ types, sub.get "type" = some (.arr types) ∧ .str "object" ∈ types) →
    sub.get "properties" = none → Closed sub) ∧
  ∀ parent item sub, Visits schema parent → Item parent item → Reaches item sub → ObjectTyped sub → Closed sub

end Schema

/-- The parts of a schema that the rewriting treats in the same way. -/
inductive Place where
  | schema
  | entries
  | variants
  | other
  deriving DecidableEq, Repr

namespace Place

def rewrite : Place → Json → Json
  | schema => addPropsFalse
  | entries => addPropsFalseEntries
  | variants => addPropsFalseVariants
  | other => id

def under : Place → Schema.PathStep → Place
  | schema, .key key =>
    if key = "$defs" ∨ key = "properties" then entries
    else if key = "items" then schema
    else if key = "anyOf" ∨ key = "oneOf" ∨ key = "allOf" then variants
    else other
  | entries, .key _ => schema
  | variants, .index _ => schema
  | _, _ => other

end Place

namespace Schema
variable {schema sub : Json} {fields : List (String × Json)}

theorem addPropsFalseFields_eq (fields : List (String × Json)) : addPropsFalseFields fields =
    fields.map fun f => (f.1, (Place.schema.under (.key f.1)).rewrite f.2) := by
  induction fields with
  | nil => rfl
  | cons f fields ih =>
    obtain ⟨key, value⟩ := f
    rw [addPropsFalseFields, ih, List.map_cons]
    congr 2
    simp only [Place.under]
    split_ifs <;> rfl

theorem addPropsFalseValues_eq (entries : List (String × Json)) :
    addPropsFalseValues entries = entries.map fun f => (f.1, addPropsFalse f.2) := by
  induction entries with
  | nil => rfl
  | cons f entries ih =>
    obtain ⟨name, schema⟩ := f
    rw [addPropsFalseValues, ih, List.map_cons]

theorem addPropsFalseItems_eq (variants : List Json) : addPropsFalseItems variants = variants.map addPropsFalse := by
  induction variants with
  | nil => rfl
  | cons schema variants ih => rw [addPropsFalseItems, ih, List.map_cons]

/-- The rewriting of an object at any place: its values are rewritten where they are, and a schema may be closed. -/
theorem rewrite_obj (place : Place) (fields : List (String × Json)) : ∃ more, place.rewrite (.obj fields) =
    .obj ((fields.map fun f => (f.1, (place.under (.key f.1)).rewrite f.2)) ++ more) ∧
    (more = if place = .schema ∧ isObjectSchema fields = true ∧ fields.lookup closedKey = none then
      [(closedKey, .bool false)] else []) := by
  have hlookup : fields.lookup closedKey = none ↔ fields.any (·.1 == closedKey) = false := by
    rw [List.lookup_eq_none_iff, List.any_eq_false]
    refine forall_congr' fun f => imp_congr_right fun _ => ?_
    rw [bne_iff_ne, beq_iff_eq]
    exact not_congr eq_comm
  refine ⟨_, ?_, rfl⟩
  cases place with
  | schema =>
    simp only [Place.rewrite, addPropsFalse, addPropsFalseFields_eq, hlookup, Bool.and_eq_true, Bool.not_eq_true',
      true_and]
    split_ifs <;> simp
  | entries => simp [Place.rewrite, addPropsFalseEntries, addPropsFalseValues_eq, Place.under]
  | variants => simp [Place.rewrite, addPropsFalseVariants, Place.under]
  | other => simp [Place.rewrite, Place.under]

theorem rewrite_arr (place : Place) (items : List Json) : place.rewrite (.arr items) =
    .arr (items.map (place.under (.index 0)).rewrite) := by
  cases place with
  | schema => simp [Place.rewrite, addPropsFalse, Place.under]
  | entries => simp [Place.rewrite, addPropsFalseEntries, Place.under]
  | variants => simp [Place.rewrite, addPropsFalseVariants, addPropsFalseItems_eq, Place.under]
  | other => simp [Place.rewrite, Place.under]

theorem rewrite_scalar (place : Place) {j : Json} (harr : ∀ items, j ≠ .arr items) (hobj : ∀ fields, j ≠ .obj fields) :
    place.rewrite j = j := by
  cases j with
  | arr items => exact absurd rfl (harr items)
  | obj fields => exact absurd rfl (hobj fields)
  | null | bool | num | decimal | str => cases place <;> rfl

theorem lookup_map (rewrite : String → Json → Json) (fields : List (String × Json)) (key : String) :
    (fields.map fun f => (f.1, rewrite f.1 f.2)).lookup key = (fields.lookup key).map (rewrite key) := by
  induction fields with
  | nil => rfl
  | cons f fields ih =>
    obtain ⟨name, value⟩ := f
    rw [List.map_cons]
    cases hname : key == name with
    | true => simp [eq_of_beq hname]
    | false => simp only [List.lookup_cons, hname, ih]

theorem get_addPropsFalse {key : String} (schema : Json) (hkey : key ≠ closedKey) :
    (addPropsFalse schema).get key = (schema.get key).map (Place.schema.under (.key key)).rewrite := by
  cases schema with
  | obj fields =>
    obtain ⟨more, hrewrite, hmore⟩ := rewrite_obj .schema fields
    have hnot : more.lookup key = none := by
      have hne : (key == closedKey) = false := beq_eq_false_iff_ne.2 hkey
      rw [hmore]
      split_ifs <;> simp [List.lookup_cons, hne]
    change addPropsFalse (.obj fields) = _ at hrewrite
    rw [hrewrite, Json.get, Json.get, List.lookup_append, hnot, Option.or_none]
    exact lookup_map (fun key => (Place.schema.under (.key key)).rewrite) fields key
  | null | bool | num | decimal | str | arr => rfl

theorem closed_addPropsFalse (schema : Json) : Closed (addPropsFalse schema) ↔
    Closed schema ∨ ∃ fields, schema = .obj fields ∧ isObjectSchema fields = true := by
  cases schema with
  | obj fields =>
    obtain ⟨more, hrewrite, hmore⟩ := rewrite_obj .schema fields
    change addPropsFalse (.obj fields) = _ at hrewrite
    have hlookup := lookup_map (fun key => (Place.schema.under (.key key)).rewrite) fields closedKey
    rw [Closed, Closed, hrewrite, Json.get, Json.get, List.lookup_append, hlookup, hmore]
    cases hclosed : fields.lookup closedKey with
    | some value => simp
    | none => cases hobject : isObjectSchema fields <;> simp [hobject]
  | null | bool | num | decimal | str | arr => simp [addPropsFalse]

theorem isObjectSchema_iff (schema : Json) : (∃ fields, schema = .obj fields ∧ isObjectSchema fields = true) ↔
    schema.get "type" = some (.str "object") ∨ (schema.get "properties").isSome := by
  have hstr (j : Option Json) : j.bind Json.asStr = some "object" ↔ j = some (.str "object") := by
    constructor
    · intro h
      obtain ⟨value, rfl, hvalue⟩ := Option.bind_eq_some_iff.1 h
      cases value <;> simp_all [Json.asStr]
    · rintro rfl
      rfl
  cases schema with
  | obj fields =>
    simp [isObjectSchema, Json.get, hstr]
  | null | bool | num | decimal | str | arr => simp [Json.get]

theorem objectTyped_addPropsFalse (schema : Json) : ObjectTyped (addPropsFalse schema) ↔ ObjectTyped schema := by
  have htype : (addPropsFalse schema).get "type" = schema.get "type" := by
    rw [get_addPropsFalse schema (by decide)]
    exact Option.map_id'
  rw [ObjectTyped, ObjectTyped, htype, get_addPropsFalse schema (by decide), Option.isSome_map]

theorem addPropsFalse_eq_arr {value : Json} {items : List Json} :
    addPropsFalse value = .arr items ↔ value = .arr items := by
  cases value <;> simp [addPropsFalse]

theorem under_entry {key : String} (h : key = "$defs" ∨ key = "properties") :
    key ≠ closedKey ∧ Place.schema.under (.key key) = .entries := by
  rcases h with rfl | rfl <;> exact ⟨by decide, by decide⟩

theorem under_variant {key : String} (h : key = "anyOf" ∨ key = "oneOf" ∨ key = "allOf") :
    key ≠ closedKey ∧ Place.schema.under (.key key) = .variants := by
  rcases h with rfl | rfl | rfl <;> exact ⟨by decide, by decide⟩

theorem get_entries {key : String} (hkey : key = "$defs" ∨ key = "properties") {entries' : List (String × Json)} :
    (addPropsFalse schema).get key = some (.obj entries') ↔
      ∃ entries, schema.get key = some (.obj entries) ∧ entries' = entries.map fun f => (f.1, addPropsFalse f.2) := by
  obtain ⟨hne, hunder⟩ := under_entry hkey
  rw [get_addPropsFalse schema hne, hunder, Option.map_eq_some_iff]
  constructor
  · rintro ⟨value, hvalue, hentries⟩
    cases value with
    | obj entries =>
      rw [Place.rewrite, addPropsFalseEntries, addPropsFalseValues_eq] at hentries
      exact ⟨entries, hvalue, (Json.obj.inj hentries).symm⟩
    | null | bool | num | decimal | str | arr => simp [Place.rewrite, addPropsFalseEntries] at hentries
  · rintro ⟨entries, hentries, rfl⟩
    exact ⟨.obj entries, hentries, congrArg Json.obj (addPropsFalseValues_eq entries)⟩

theorem get_variants {key : String} (hkey : key = "anyOf" ∨ key = "oneOf" ∨ key = "allOf") {variants' : List Json} :
    (addPropsFalse schema).get key = some (.arr variants') ↔
      ∃ variants, schema.get key = some (.arr variants) ∧ variants' = variants.map addPropsFalse := by
  obtain ⟨hne, hunder⟩ := under_variant hkey
  rw [get_addPropsFalse schema hne, hunder, Option.map_eq_some_iff]
  constructor
  · rintro ⟨value, hvalue, hvariants⟩
    cases value with
    | arr variants =>
      rw [Place.rewrite, addPropsFalseVariants, addPropsFalseItems_eq] at hvariants
      exact ⟨variants, hvalue, (Json.arr.inj hvariants).symm⟩
    | null | bool | num | decimal | str | obj => simp [Place.rewrite, addPropsFalseVariants] at hvariants
  · rintro ⟨variants, hvariants, rfl⟩
    exact ⟨.arr variants, hvariants, congrArg Json.arr (addPropsFalseItems_eq variants)⟩

theorem get_items (schema : Json) : (addPropsFalse schema).get "items" = (schema.get "items").map addPropsFalse :=
  get_addPropsFalse schema (by decide)

/-- The children of the rewritten schema are the children, rewritten. -/
theorem child_addPropsFalse {sub' : Json} : Child (addPropsFalse schema) sub' ↔
    ∃ sub, Child schema sub ∧ sub' = addPropsFalse sub := by
  constructor
  · intro h
    cases h with
    | entry hkey hget hmem =>
      obtain ⟨entries, hentries, rfl⟩ := (get_entries hkey).1 hget
      obtain ⟨⟨name, sub⟩, hsub, heq⟩ := List.mem_map.1 hmem
      cases heq
      exact ⟨sub, .entry hkey hentries hsub, rfl⟩
    | items hget harr =>
      rw [get_items, Option.map_eq_some_iff] at hget
      obtain ⟨value, hvalue, rfl⟩ := hget
      exact ⟨value, .items hvalue fun items heq => harr items (addPropsFalse_eq_arr.2 heq), rfl⟩
    | variant hkey hget hmem =>
      obtain ⟨variants, hvariants, rfl⟩ := (get_variants hkey).1 hget
      obtain ⟨sub, hsub, rfl⟩ := List.mem_map.1 hmem
      exact ⟨sub, .variant hkey hvariants hsub, rfl⟩
  · rintro ⟨sub, h, rfl⟩
    cases h with
    | entry hkey hget hmem =>
      exact .entry hkey ((get_entries hkey).2 ⟨_, hget, rfl⟩) (List.mem_map.2 ⟨_, hmem, rfl⟩)
    | items hget harr =>
      refine .items ?_ fun items heq => harr items (addPropsFalse_eq_arr.1 heq)
      rw [get_items, hget, Option.map_some]
    | variant hkey hget hmem =>
      exact .variant hkey ((get_variants hkey).2 ⟨_, hget, rfl⟩) (List.mem_map_of_mem hmem)

/-- An array of items stays as it is. -/
theorem item_addPropsFalse : Item (addPropsFalse schema) sub ↔ Item schema sub := by
  refine exists_congr fun items => and_congr_left fun _ => ?_
  rw [get_addPropsFalse schema (by decide), Option.map_eq_some_iff]
  constructor
  · rintro ⟨value, hvalue, hitems⟩
    rw [hvalue, addPropsFalse_eq_arr.1 hitems]
  · intro hvalue
    exact ⟨_, hvalue, addPropsFalse_eq_arr.2 rfl⟩

theorem visits_addPropsFalse {sub' : Json} : Visits (addPropsFalse schema) sub' ↔
    ∃ sub, Visits schema sub ∧ sub' = addPropsFalse sub := by
  constructor
  · intro h
    induction h with
    | refl => exact ⟨schema, .refl, rfl⟩
    | tail _ hchild ih =>
      obtain ⟨sub, hsub, rfl⟩ := ih
      obtain ⟨child, hbefore, rfl⟩ := child_addPropsFalse.1 hchild
      exact ⟨child, hsub.tail hbefore, rfl⟩
  · rintro ⟨sub, h, rfl⟩
    induction h with
    | refl => exact .refl
    | tail _ hchild ih => exact ih.tail (child_addPropsFalse.2 ⟨_, hchild, rfl⟩)

/-- A subschema is visited, or it is behind an array of items of one that is. -/
theorem reaches_iff : Reaches schema sub ↔
    Visits schema sub ∨ ∃ parent item, Visits schema parent ∧ Item parent item ∧ Reaches item sub := by
  constructor
  · intro h
    induction h with
    | refl => exact .inl .refl
    | tail _ hnext ih =>
      rcases ih with hvisits | ⟨parent, item, hparent, hitem, hrest⟩
      · rcases hnext with hchild | hitem
        · exact .inl (hvisits.tail hchild)
        · exact .inr ⟨_, _, hvisits, hitem, .refl⟩
      · exact .inr ⟨parent, item, hparent, hitem, hrest.tail hnext⟩
  · have hreaches {a b : Json} (h : Visits a b) : Reaches a b :=
      Relation.ReflTransGen.mono (r := Child) (fun _ _ hchild => Or.inl hchild) a b h
    rintro (h | ⟨parent, item, hparent, hitem, hrest⟩)
    · exact hreaches h
    · exact ((hreaches hparent).tail (.inr hitem)).trans hrest

theorem reaches_addPropsFalse {sub' : Json} : Reaches (addPropsFalse schema) sub' ↔
    (∃ sub, Visits schema sub ∧ sub' = addPropsFalse sub) ∨
      ∃ parent item, Visits schema parent ∧ Item parent item ∧ Reaches item sub' := by
  rw [reaches_iff, visits_addPropsFalse]
  refine or_congr_right ⟨?_, ?_⟩
  · rintro ⟨parent, item, hparent, hitem, hrest⟩
    obtain ⟨sub, hsub, rfl⟩ := visits_addPropsFalse.1 hparent
    exact ⟨sub, item, hsub, item_addPropsFalse.1 hitem, hrest⟩
  · rintro ⟨parent, item, hparent, hitem, hrest⟩
    exact ⟨_, item, visits_addPropsFalse.2 ⟨parent, hparent, rfl⟩, item_addPropsFalse.2 hitem, hrest⟩

/-- Which object schemas the rewriting leaves open. -/
theorem closes_iff (schema : Json) :
    (∀ sub, Reaches (addPropsFalse schema) sub → ObjectTyped sub → Closed sub) ↔ ClosedElsewhere schema := by
  constructor
  · intro h
    constructor
    · intro sub hsub htypes hproperties
      have hclosed := h _ (reaches_addPropsFalse.2 (.inl ⟨sub, hsub, rfl⟩))
        ((objectTyped_addPropsFalse sub).2 (.inr (.inl htypes)))
      refine ((closed_addPropsFalse sub).1 hclosed).resolve_right fun hobject => ?_
      obtain ⟨types, htype, -⟩ := htypes
      rcases (isObjectSchema_iff sub).1 hobject with hstr | hsome
      · rw [htype] at hstr
        cases hstr
      · rw [hproperties] at hsome
        cases hsome
    · intro parent item sub hparent hitem hsub hobject
      exact h sub (reaches_addPropsFalse.2 (.inr ⟨parent, item, hparent, hitem, hsub⟩)) hobject
  · rintro ⟨htypes, hitems⟩ sub' hsub' hobject
    rcases reaches_addPropsFalse.1 hsub' with ⟨sub, hsub, rfl⟩ | ⟨parent, item, hparent, hitem, hrest⟩
    · rw [closed_addPropsFalse, isObjectSchema_iff]
      rcases (objectTyped_addPropsFalse sub).1 hobject with hstr | hlist | hsome
      · exact .inr (.inl hstr)
      · cases hproperties : sub.get "properties" with
        | none => exact .inl (htypes sub hsub hlist hproperties)
        | some properties => exact .inr (.inr rfl)
      · exact .inr (.inr hsome)
    · exact hitems parent item sub' hparent hitem hrest hobject

/-- A rewritten object schema is closed. -/
theorem lookup_closedKey {fields' : List (String × Json)} (h : addPropsFalse (.obj fields) = .obj fields')
    (hobject : isObjectSchema fields' = true) : fields'.lookup closedKey ≠ none := by
  have hafter := (isObjectSchema_iff (addPropsFalse (.obj fields))).1 ⟨fields', h, hobject⟩
  have htype : (addPropsFalse (.obj fields)).get "type" = (Json.obj fields).get "type" := by
    rw [get_addPropsFalse _ (by decide)]
    exact Option.map_id'
  rw [htype, get_addPropsFalse _ (by decide), Option.isSome_map] at hafter
  have hclosed := (closed_addPropsFalse (.obj fields)).2 (.inr ((isObjectSchema_iff _).2 hafter))
  rw [h] at hclosed
  exact Option.isSome_iff_ne_none.1 hclosed

/-- Twice is once, at every place. -/
theorem rewrite_rewrite (j : Json) (place : Place) : place.rewrite (place.rewrite j) = place.rewrite j := by
  induction j using Json.induct generalizing place with
  | scalar j harr hobj => rw [rewrite_scalar place harr hobj, rewrite_scalar place harr hobj]
  | arr items ih =>
    rw [rewrite_arr, rewrite_arr, List.map_map]
    refine congrArg Json.arr (List.map_congr_left fun item hitem => ?_)
    exact ih item hitem _
  | obj fields ih =>
    obtain ⟨more, hmore, hadded⟩ := rewrite_obj place fields
    obtain ⟨more', hmore', hadded'⟩ :=
      rewrite_obj place ((fields.map fun f => (f.1, (place.under (.key f.1)).rewrite f.2)) ++ more)
    have hnone : more' = [] := by
      rw [hadded', if_neg]
      rintro ⟨rfl, hobject, hopen⟩
      exact lookup_closedKey hmore hobject hopen
    have hsame : more.map (fun f => (f.1, (place.under (.key f.1)).rewrite f.2)) = more := by
      rw [hadded]
      split_ifs with h
      · rw [List.map_singleton, rewrite_scalar _ (by simp) (by simp)]
      · rfl
    rw [hmore, hmore', hnone, List.append_nil, List.map_append, hsame, List.map_map]
    congr 2
    refine List.map_congr_left fun f hf => ?_
    simp only [Function.comp_apply, ih f hf]

theorem under_index (place : Place) (index : Nat) : place.under (.index index) = place.under (.index 0) := by
  cases place <;> rfl

theorem lookup_rewrite (place : Place) (fields more : List (String × Json)) (key : String) :
    ((fields.map fun f => (f.1, (place.under (.key f.1)).rewrite f.2)) ++ more).lookup key =
      ((fields.lookup key).map (place.under (.key key)).rewrite).or (more.lookup key) := by
  rw [List.lookup_append, lookup_map fun key => (place.under (.key key)).rewrite]

theorem atPath_key {key : String} {path : List PathStep} {j v : Json} (h : atPath j (.key key :: path) = some v) :
    ∃ fields t, j = .obj fields ∧ fields.lookup key = some t ∧ atPath t path = some v := by
  cases j with
  | obj fields =>
    obtain ⟨t, hlookup, hrest⟩ := Option.bind_eq_some_iff.1 h
    exact ⟨fields, t, rfl, hlookup, hrest⟩
  | null | bool | num | decimal | str | arr => cases h

theorem atPath_index {index : Nat} {path : List PathStep} {j v : Json} (h : atPath j (.index index :: path) = some v) :
    ∃ items t, j = .arr items ∧ items[index]? = some t ∧ atPath t path = some v := by
  cases j with
  | arr items =>
    obtain ⟨t, hget, hrest⟩ := Option.bind_eq_some_iff.1 h
    exact ⟨items, t, rfl, hget, hrest⟩
  | null | bool | num | decimal | str | obj => cases h

/-- What was anywhere in the value is there afterwards, rewritten as its place asks for. -/
theorem atPath_rewrite {path : List PathStep} {j v : Json} (place : Place) (h : atPath j path = some v) :
    atPath (place.rewrite j) path = some ((path.foldl Place.under place).rewrite v) := by
  induction path generalizing j place with
  | nil =>
    cases h
    rfl
  | cons step path ih =>
    cases step with
    | key key =>
      obtain ⟨fields, t, rfl, hlookup, hrest⟩ := atPath_key h
      obtain ⟨more, hrewrite, -⟩ := rewrite_obj place fields
      rw [hrewrite, atPath, lookup_rewrite, hlookup]
      exact ih _ hrest
    | index index =>
      obtain ⟨items, t, rfl, hget, hrest⟩ := atPath_index h
      rw [rewrite_arr, atPath, List.getElem?_map, hget, List.foldl_cons, under_index place index]
      exact ih _ hrest

theorem kept_rewrite (place : Place) (v : Json) : Kept v (place.rewrite v) := by
  cases v with
  | arr items => exact ⟨_, rewrite_arr place items, List.length_map _⟩
  | obj fields =>
    obtain ⟨more, hrewrite, -⟩ := rewrite_obj place fields
    refine ⟨_, more.map Prod.fst, hrewrite, ?_⟩
    simp [Function.comp_def]
  | null | bool | num | decimal | str => exact rewrite_scalar place (by simp) (by simp)

/-- The schemas that the rewriting of a value at some place visits. -/
def VisitsIn : Place → Json → Json → Prop
  | .schema, j, sub => Visits j sub
  | .entries, j, sub => ∃ entries name schema, j = .obj entries ∧ (name, schema) ∈ entries ∧ Visits schema sub
  | .variants, j, sub => ∃ variants schema, j = .arr variants ∧ schema ∈ variants ∧ Visits schema sub
  | .other, _, _ => False

theorem mem_of_lookup {key : String} {value : Json} (h : fields.lookup key = some value) : (key, value) ∈ fields := by
  obtain ⟨before, after, rfl, -⟩ := List.lookup_eq_some_iff.1 h
  simp

theorem visitsIn_key (place : Place) {key : String} {t : Json} (hlookup : fields.lookup key = some t)
    (hsub : ∀ items, sub ≠ .arr items) (h : VisitsIn (place.under (.key key)) t sub) :
    VisitsIn place (.obj fields) sub := by
  cases place with
  | schema =>
    simp only [Place.under] at h
    split_ifs at h with hentry hitems hvariant
    · obtain ⟨entries, name, schema, rfl, hmem, hvisits⟩ := h
      exact hvisits.head (.entry hentry hlookup hmem)
    · subst hitems
      by_cases harr : ∃ items, t = .arr items
      · obtain ⟨items, rfl⟩ := harr
        rcases Relation.ReflTransGen.cases_head h with rfl | ⟨child, hchild, -⟩
        · exact absurd rfl (hsub items)
        · cases hchild with
          | entry _ hget _ | items hget _ | variant _ hget _ => cases hget
      · exact h.head (.items hlookup fun items heq => harr ⟨items, heq⟩)
    · obtain ⟨variants, schema, rfl, hmem, hvisits⟩ := h
      exact hvisits.head (.variant hvariant hlookup hmem)
    · exact h.elim
  | entries => exact ⟨fields, key, t, rfl, mem_of_lookup hlookup, h⟩
  | variants => exact h.elim
  | other => exact h.elim

theorem visitsIn_index (place : Place) {items : List Json} {index : Nat} {t : Json} (hget : items[index]? = some t)
    (h : VisitsIn (place.under (.index 0)) t sub) : VisitsIn place (.arr items) sub := by
  cases place with
  | variants => exact ⟨items, t, rfl, List.mem_of_getElem? hget, h⟩
  | schema | entries | other => exact h.elim

theorem obj_of_rewrite {place : Place} {j : Json} (h : place.rewrite j = .obj fields) : ∃ before, j = .obj before := by
  cases j with
  | obj before => exact ⟨before, rfl⟩
  | arr items =>
    rw [rewrite_arr] at h
    cases h
  | null | bool | num | decimal | str =>
    rw [rewrite_scalar place (by simp) (by simp)] at h
    cases h

theorem arr_of_rewrite {place : Place} {j : Json} {items : List Json} (h : place.rewrite j = .arr items) :
    ∃ before, j = .arr before := by
  cases j with
  | arr before => exact ⟨before, rfl⟩
  | obj fields =>
    obtain ⟨more, hrewrite, -⟩ := rewrite_obj place fields
    rw [hrewrite] at h
    cases h
  | null | bool | num | decimal | str =>
    rw [rewrite_scalar place (by simp) (by simp)] at h
    cases h

/-- A key that an object gets is the one that closes an object schema. -/
theorem closing_of_lookup {place : Place} {key : String} {v' : Json}
    (h : (place.rewrite (.obj fields)).get key = some v') (hnew : fields.lookup key = none) :
    place = .schema ∧ key = closedKey ∧ v' = .bool false ∧ isObjectSchema fields = true := by
  obtain ⟨more, hrewrite, hmore⟩ := rewrite_obj place fields
  rw [hrewrite, Json.get, lookup_rewrite, hnew, Option.map_none, Option.none_or, hmore] at h
  split_ifs at h with hcloses
  · obtain ⟨hplace, hobject, -⟩ := hcloses
    obtain ⟨hkey, hvalue⟩ : key = closedKey ∧ v' = .bool false := by
      simpa [eq_comm] using mem_of_lookup h
    exact ⟨hplace, hkey, hvalue, hobject⟩
  · cases h

/-- What is new is that an object schema which was visited is closed. -/
theorem new_of_rewrite {path : List PathStep} {j v' : Json} (place : Place)
    (h : atPath (place.rewrite j) path = some v') (hnew : atPath j path = none) :
    ∃ front sub, path = front ++ [.key closedKey] ∧ v' = .bool false ∧ atPath j front = some sub ∧
      VisitsIn place j sub ∧ ∃ fields, sub = .obj fields ∧ isObjectSchema fields = true := by
  induction path generalizing j place with
  | nil => cases hnew
  | cons step path ih =>
    cases step with
    | key key =>
      obtain ⟨fields', t', hfields', hlookup', hrest⟩ := atPath_key h
      obtain ⟨fields, rfl⟩ := obj_of_rewrite hfields'
      have hget : (place.rewrite (.obj fields)).get key = some t' := by
        rw [hfields']
        exact hlookup'
      rw [atPath] at hnew
      cases hlookup : fields.lookup key with
      | some t =>
        obtain ⟨more, hrewrite, -⟩ := rewrite_obj place fields
        rw [hrewrite, Json.get, lookup_rewrite, hlookup] at hget
        obtain rfl := Option.some.inj hget
        rw [hlookup] at hnew
        obtain ⟨front, sub, rfl, hfalse, hfront, hvisits, fields', rfl, hobject⟩ := ih _ hrest hnew
        refine ⟨.key key :: front, .obj fields', rfl, hfalse, ?_, ?_, fields', rfl, hobject⟩
        · rw [atPath, hlookup]
          exact hfront
        · exact visitsIn_key place hlookup (by simp) hvisits
      | none =>
        obtain ⟨rfl, rfl, rfl, hobject⟩ := closing_of_lookup hget hlookup
        cases path with
        | nil =>
          cases hrest
          exact ⟨[], .obj fields, rfl, rfl, rfl, .refl, fields, rfl, hobject⟩
        | cons step path => cases step <;> cases hrest
    | index index =>
      obtain ⟨items', t', hitems', hget', hrest⟩ := atPath_index h
      obtain ⟨items, rfl⟩ := arr_of_rewrite hitems'
      obtain rfl := Json.arr.inj ((rewrite_arr place items).symm.trans hitems')
      rw [List.getElem?_map] at hget'
      obtain ⟨t, hget, rfl⟩ := Option.map_eq_some_iff.1 hget'
      rw [atPath, hget] at hnew
      obtain ⟨front, sub, rfl, hfalse, hfront, hvisits, hobject⟩ := ih _ hrest hnew
      refine ⟨.index index :: front, sub, rfl, hfalse, ?_, visitsIn_index place hget hvisits, hobject⟩
      rw [atPath, hget]
      exact hfront

/-- The rewriting closes every object schema below a schema, changes nothing else and does it once and for all, exactly
when the object schemas that it overlooks are closed beforehand. Only the first part can fail: it does not go into an
array of items, and a list of types is no object type to it. -/
theorem addPropsFalse_iff (schema : Json) :
    ((∀ sub, Reaches (addPropsFalse schema) sub → ObjectTyped sub → Closed sub) ∧
      (∀ path v, atPath schema path = some v → ∃ v', atPath (addPropsFalse schema) path = some v' ∧ Kept v v') ∧
      (∀ path v', atPath (addPropsFalse schema) path = some v' → atPath schema path = none →
        ∃ front sub, path = front ++ [.key closedKey] ∧ v' = .bool false ∧ atPath schema front = some sub ∧
          Visits schema sub ∧ ObjectTyped sub) ∧
      addPropsFalse (addPropsFalse schema) = addPropsFalse schema) ↔ ClosedElsewhere schema := by
  rw [closes_iff]
  refine ⟨fun h => h.1, fun h => ⟨h, fun path v hv => ?_, fun path v' hv' hnew => ?_, rewrite_rewrite schema .schema⟩⟩
  · exact ⟨_, atPath_rewrite .schema hv, kept_rewrite _ v⟩
  · obtain ⟨front, sub, rfl, hfalse, hfront, hvisits, hobject⟩ := new_of_rewrite .schema hv' hnew
    refine ⟨front, sub, rfl, hfalse, hfront, hvisits, ?_⟩
    rcases (isObjectSchema_iff sub).1 hobject with hstr | hsome
    · exact .inl hstr
    · exact .inr (.inr hsome)

/-- A pair whose parts are given by an array of schemas. -/
def pairSchema : Json :=
  .obj [("type", .str "array"), ("items", .arr [.obj [("type", .str "object")], .obj [("type", .str "string")]])]

theorem pairSchema_stays_open :
    addPropsFalse pairSchema = pairSchema ∧
      ∃ sub, Reaches (addPropsFalse pairSchema) sub ∧ ObjectTyped sub ∧ ¬ Closed sub := by
  refine ⟨rfl, .obj [("type", .str "object")], ?_, .inl rfl, by simp [Closed, Json.get, closedKey]⟩
  exact .single (.inr ⟨[.obj [("type", .str "object")], .obj [("type", .str "string")]], rfl, by simp⟩)

end Schema
end Fusions.Ai
