import Mathlib.Init

/-! Encoders that go through a list and stop at the first part that they refuse. -/
namespace Fusions.Library
universe u v w x
variable {α β : Type u} {γ : Type w} {ε : Type v}

/-- What stands before a bind has a value if the whole has one. -/
theorem bind_eq_ok {x : Except ε α} {f : α → Except ε β} {b : β} (h : x >>= f = .ok b) :
    ∃ a, x = .ok a ∧ f a = .ok b := by
  cases x with
  | error e => cases h
  | ok a => exact ⟨a, rfl, h⟩

theorem mapError_eq_ok {ε' : Type x} {x : Except ε α} {f : ε → ε'} {a : α} (h : x.mapError f = .ok a) : x = .ok a := by
  cases x with
  | error e => cases h
  | ok b => exact congrArg Except.ok (Except.ok.inj h)

/-- The parts of a list, each encoded, one after the other. -/
def encodeAll (encode : α → Except ε (List β)) : List α → Except ε (List β)
  | [] => .ok []
  | part :: parts => do
    let items ← encode part
    let rest ← encodeAll encode parts
    return items ++ rest

/-- The parts of a list, each encoded to one item. -/
def encodeEach (encode : α → Except ε β) : List α → Except ε (List β) :=
  encodeAll fun part => (encode part).map ([·])

variable {encode : α → Except ε (List β)} {parts : List α} {items : List β}

theorem encodeAll_cons {part : α} (h : encodeAll encode (part :: parts) = .ok items) :
    ∃ front rest, encode part = .ok front ∧ encodeAll encode parts = .ok rest ∧ items = front ++ rest := by
  obtain ⟨front, hfront, h⟩ := bind_eq_ok h
  obtain ⟨rest, hrest, h⟩ := bind_eq_ok h
  exact ⟨front, rest, hfront, hrest, (Except.ok.inj h).symm⟩

theorem encodeAll_append {more : List α} {items' : List β} (hfront : encodeAll encode parts = .ok items)
    (hrest : encodeAll encode more = .ok items') : encodeAll encode (parts ++ more) = .ok (items ++ items') := by
  induction parts generalizing items with
  | nil =>
    obtain rfl := Except.ok.inj hfront
    exact hrest
  | cons part parts ih =>
    obtain ⟨front, rest, hpart, hparts, rfl⟩ := encodeAll_cons hfront
    rw [List.cons_append, encodeAll, hpart, ih hparts, List.append_assoc]
    rfl

/-- A list is encoded whose parts all are. -/
theorem encodeAll_isOk (h : ∀ part ∈ parts, ∃ items, encode part = .ok items) :
    ∃ items, encodeAll encode parts = .ok items := by
  induction parts with
  | nil => exact ⟨[], rfl⟩
  | cons part parts ih =>
    obtain ⟨⟨items, hitems⟩, hparts⟩ := List.forall_mem_cons.1 h
    obtain ⟨rest, hrest⟩ := ih hparts
    exact ⟨items ++ rest, by rw [encodeAll, hitems, hrest]; rfl⟩

/-- What is read of the items of each part is read of all items. -/
theorem flatMap_encodeAll {read : β → List γ} {source : α → List γ}
    (hparts : ∀ part ∈ parts, ∀ items, encode part = .ok items → items.flatMap read = source part)
    (h : encodeAll encode parts = .ok items) : items.flatMap read = parts.flatMap source := by
  induction parts generalizing items with
  | nil =>
    obtain rfl := Except.ok.inj h
    rfl
  | cons part parts ih =>
    obtain ⟨front, rest, hfront, hrest, rfl⟩ := encodeAll_cons h
    obtain ⟨hpart, hparts⟩ := List.forall_mem_cons.1 hparts
    rw [List.flatMap_append, List.flatMap_cons, hpart front hfront, ih hparts hrest]

theorem flatMap_encodeEach {encode : α → Except ε β} {read : β → List γ} {source : α → List γ}
    (hparts : ∀ part ∈ parts, ∀ item, encode part = .ok item → read item = source part)
    (h : encodeEach encode parts = .ok items) : items.flatMap read = parts.flatMap source := by
  refine flatMap_encodeAll (fun part hpart items hitems => ?_) h
  cases hitem : encode part with
  | error e =>
    rw [hitem] at hitems
    cases hitems
  | ok item =>
    rw [hitem] at hitems
    obtain rfl := Except.ok.inj hitems
    rw [List.flatMap_singleton, hparts part hpart item hitem]

/-- The same for two encoders, one after the other. -/
theorem flatMap_encodeAll_encodeEach {δ : Type x} {μ : Type u} {first : α → Except δ μ} {second : μ → Except ε (List β)}
    {mids : List μ} {read : β → List γ} {source : α → List γ}
    (hparts : ∀ part ∈ parts, ∀ mid items, first part = .ok mid → second mid = .ok items →
      items.flatMap read = source part)
    (hfirst : encodeEach first parts = .ok mids) (hsecond : encodeAll second mids = .ok items) :
    items.flatMap read = parts.flatMap source := by
  induction parts generalizing mids items with
  | nil =>
    obtain rfl := Except.ok.inj hfirst
    obtain rfl := Except.ok.inj hsecond
    rfl
  | cons part parts ih =>
    obtain ⟨front, rest, hfront, hrest, rfl⟩ := encodeAll_cons hfirst
    cases hmid : first part with
    | error e =>
      rw [hmid] at hfront
      cases hfront
    | ok mid =>
      rw [hmid] at hfront
      obtain rfl := Except.ok.inj hfront
      obtain ⟨items', rest', hitems', hrest', rfl⟩ := encodeAll_cons hsecond
      obtain ⟨hpart, hparts⟩ := List.forall_mem_cons.1 hparts
      rw [List.flatMap_append, List.flatMap_cons, hpart mid items' hmid hitems', ih hparts hrest hrest']

theorem length_encodeEach {encode : α → Except ε β} (h : encodeEach encode parts = .ok items) :
    items.length = parts.length := by
  have hread : items.flatMap (fun _ => [()]) = parts.flatMap fun _ => [()] :=
    flatMap_encodeEach (fun _ _ _ _ => rfl) h
  rw [← List.map_eq_flatMap, ← List.map_eq_flatMap] at hread
  simpa using congrArg List.length hread

end Fusions.Library
