import Fusions.Hetuflow.Core.Json
import Fusions.Library.Readable

/-! The compact text of a JSON value, and that it tells the value: each token, string, array and object shows where
it ends. -/
namespace Fusions.Hetuflow
open Library

namespace Json

def quote : Char := Char.ofNat 34

def backslash : Char := Char.ofNat 92

/-- A character inside a string: the two-character escapes, `\\u00xx` for the other control characters, and the
character itself. -/
def escape (c : Char) : List Char :=
  match c.toNat with
  | 34 => [backslash, quote]
  | 92 => [backslash, backslash]
  | 8 => [backslash, 'b']
  | 9 => [backslash, 't']
  | 10 => [backslash, 'n']
  | 12 => [backslash, 'f']
  | 13 => [backslash, 'r']
  | n =>
    if n < 32 then [backslash, 'u', '0', '0', Nat.digitChar (n / 16), Nat.digitChar (n % 16)] else [c]

/-- `Value::String(s).to_string()`. -/
def quoted (s : String) : String := String.ofList (quote :: s.toList.flatMap escape ++ [quote])

mutual

/-- `Value::to_string()`. -/
def text : Json → String
  | .null => "null"
  | .bool b => if b then "true" else "false"
  | .num n => toString n
  | .decimal text => text
  | .str s => quoted s
  | .arr items => "[" ++ ",".intercalate (itemTexts items) ++ "]"
  | .obj fields => "\x7b" ++ ",".intercalate (fieldTexts fields) ++ "\x7d"

def itemTexts : List Json → List String
  | [] => []
  | item :: items => item.text :: itemTexts items

def fieldTexts : List (String × Json) → List String
  | [] => []
  | (key, value) :: fields => (quoted key ++ ":" ++ value.text) :: fieldTexts fields

end

section
-- makes the equations before the lemmas that all ask for them
attribute [local simp] text itemTexts fieldTexts
end

/-- A number with a fraction or an exponent. -/
def IsDecimal (text : String) : Prop :=
  (∀ c ∈ text.toList, c.isDigit = true ∨ c ∈ ['-', '.', 'e']) ∧ ∃ c ∈ text.toList, c ∈ ['.', 'e']

/-- The values that `serde_json` builds: a map has each key once, and a number that is no integer has a fraction
or an exponent. -/
inductive WellFormed : Json → Prop where
  | null : WellFormed .null
  | bool (b : Bool) : WellFormed (.bool b)
  | num (n : Int) : WellFormed (.num n)
  | decimal {text : String} : IsDecimal text → WellFormed (.decimal text)
  | str (s : String) : WellFormed (.str s)
  | arr {items : List Json} : (∀ item ∈ items, WellFormed item) → WellFormed (.arr items)
  | obj {fields : List (String × Json)} : (fields.map Prod.fst).Nodup → (∀ f ∈ fields, WellFormed f.2) →
      WellFormed (.obj fields)

/-- Induction over a value, with the hypothesis for the items of an array and the values of an object. -/
@[elab_as_elim]
theorem induct {motive : Json → Prop} (scalar : ∀ j, (∀ items, j ≠ .arr items) → (∀ fields, j ≠ .obj fields) → motive j)
    (arr : ∀ items, (∀ item ∈ items, motive item) → motive (.arr items))
    (obj : ∀ fields : List (String × Json), (∀ f ∈ fields, motive f.2) → motive (.obj fields)) (j : Json) : motive j := by
  match j with
  | .arr items => exact arr items fun item _ => induct scalar arr obj item
  | .obj fields => exact obj fields fun f _ => induct scalar arr obj f.2
  | .null | .bool _ | .num _ | .decimal _ | .str _ => exact scalar _ nofun nofun
termination_by sizeOf j
decreasing_by
  · exact Nat.lt_trans (List.sizeOf_lt_of_mem ‹_›) (by simp)
  · have hmem : sizeOf f < sizeOf fields := List.sizeOf_lt_of_mem ‹_›
    have hvalue : sizeOf f.2 < sizeOf f := by
      cases f
      simp only [Prod.mk.sizeOf_spec]
      omega
    simp only [Json.obj.sizeOf_spec]
    omega

/-! Strings. -/

/-- The characters that are written as an escape sequence. -/
def escaped : List Char := (List.range 32).map Char.ofNat ++ [quote, backslash]

theorem escape_of_not_mem {c : Char} (h : c ∉ escaped) : escape c = [c] := by
  have hcode : ∀ n, c.toNat = n → c = Char.ofNat n := fun n heq => by rw [← heq, Char.ofNat_toNat]
  have hcontrol : ¬ c.toNat < 32 := fun hlt =>
    h (List.mem_append_left _ (List.mem_map.2 ⟨c.toNat, List.mem_range.2 hlt, Char.ofNat_toNat c⟩))
  have hquote : c.toNat ≠ 34 := fun heq => h (by simp [escaped, quote, hcode 34 heq])
  have hbackslash : c.toNat ≠ 92 := fun heq => h (by simp [escaped, backslash, hcode 92 heq])
  unfold escape
  split <;> first | omega | simp [hcontrol]

theorem escape_of_mem : ∀ c ∈ escaped, ∃ d ds, escape c = backslash :: d :: ds := by
  have hall : (escaped.all fun c => (escape c).head? = some backslash ∧ 2 ≤ (escape c).length) = true := by
    decide +kernel
  intro c hc
  obtain ⟨hhead, hlength⟩ := of_decide_eq_true (List.all_eq_true.1 hall c hc)
  match hcode : escape c with
  | [] | [_] => simp [hcode] at hlength
  | b :: d :: ds =>
    rw [hcode] at hhead
    obtain rfl := Option.some.inj hhead
    exact ⟨d, ds, rfl⟩

theorem escaped_prefix : ∀ c ∈ escaped, ∀ d ∈ escaped, escape c <+: escape d → c = d := by
  have hall : (escaped.all fun c => escaped.all fun d => escape c <+: escape d → c = d) = true := by decide +kernel
  intro c hc d hd
  exact of_decide_eq_true (List.all_eq_true.1 (List.all_eq_true.1 hall c hc) d hd)

theorem escape_prefix (c d : Char) (h : escape c <+: escape d) : c = d := by
  by_cases hc : c ∈ escaped
  · by_cases hd : d ∈ escaped
    · exact escaped_prefix c hc d hd h
    · obtain ⟨e, es, hcode⟩ := escape_of_mem c hc
      rw [hcode, escape_of_not_mem hd] at h
      simpa using h.length_le
  · rw [escape_of_not_mem hc] at h
    by_cases hd : d ∈ escaped
    · obtain ⟨e, es, hcode⟩ := escape_of_mem d hd
      rw [hcode] at h
      obtain rfl : c = backslash := (List.cons_prefix_cons.1 h).1
      exact absurd (List.mem_append_right _ (List.mem_cons_of_mem _ (List.mem_singleton_self _))) hc
    · rw [escape_of_not_mem hd] at h
      exact (List.cons_prefix_cons.1 h).1

theorem escape_ne_quote (c : Char) (s t : List Char) : escape c ++ s ≠ quote :: t := by
  by_cases hc : c ∈ escaped
  · obtain ⟨e, es, hcode⟩ := escape_of_mem c hc
    rw [hcode]
    exact fun h => absurd (List.cons.inj h).1 (by decide)
  · rw [escape_of_not_mem hc]
    rintro h
    obtain rfl := (List.cons.inj h).1
    exact hc (List.mem_append_right _ (List.mem_cons_self ..))

theorem quoted_toList (s : String) : (quoted s).toList = quote :: s.toList.flatMap escape ++ [quote] := by
  simp [quoted]

theorem quoted_readsBack {s t : String} {r u : List Char} (h : (quoted s).toList ++ r = (quoted t).toList ++ u) :
    s = t ∧ r = u := by
  rw [quoted_toList, quoted_toList] at h
  simp only [List.cons_append, List.append_assoc, List.nil_append, List.cons.injEq, true_and] at h
  obtain ⟨hst, hru⟩ := codes_readsBack (fun _ _ _ _ => prefixCode_readsBack escape_prefix) escape_ne_quote h
  exact ⟨String.toList_inj.1 hst, hru⟩

/-! Tokens: the values written without a quote or a bracket. -/

def isToken : Json → Bool
  | .null | .bool _ | .num _ | .decimal _ => true
  | _ => false

def isTokenChar (c : Char) : Bool := c.isAlphanum || c == '-' || c == '.'

def isNumeralChar (c : Char) : Bool := c.isDigit || c == '-' || c == '.' || c == 'e'

theorem toDigits_injective {m n : Nat} (h : Nat.toDigits 10 m = Nat.toDigits 10 n) : m = n := by
  have hof := congrArg (fun ds => Nat.ofDigitChars 10 ds 0) h
  simpa using hof

theorem int_text (n : Int) : ((toString n).toList = Nat.toDigits 10 n.toNat ∧ 0 ≤ n) ∨
    ((toString n).toList = '-' :: Nat.toDigits 10 (-n).toNat ∧ n < 0) := by
  cases n with
  | ofNat m => exact .inl ⟨by simp [toString, Int.repr], by simp⟩
  | negSucc m => exact .inr ⟨by simp [toString, Int.repr], by omega⟩

theorem int_chars {n : Int} {c : Char} (h : c ∈ (toString n).toList) : c.isDigit = true ∨ c = '-' := by
  have hdigits : ∀ m, ∀ d ∈ Nat.toDigits 10 m, d.isDigit = true := fun m d hd =>
    Nat.isDigit_of_mem_toDigits (by decide) (by decide) hd
  rcases int_text n with ⟨htext, -⟩ | ⟨htext, -⟩
  · rw [htext] at h
    exact .inl (hdigits _ c h)
  · rw [htext] at h
    rcases List.mem_cons.1 h with rfl | h
    · exact .inr rfl
    · exact .inl (hdigits _ c h)

theorem int_text_injective {m n : Int} (h : (toString m).toList = (toString n).toList) : m = n := by
  have hminus : ∀ k, '-' ∉ Nat.toDigits 10 k := fun k hk =>
    absurd (Nat.isDigit_of_mem_toDigits (by decide) (by decide) hk) (by decide)
  rcases int_text m with ⟨hm, hm₀⟩ | ⟨hm, hm₀⟩ <;> rcases int_text n with ⟨hn, hn₀⟩ | ⟨hn, hn₀⟩ <;> rw [hm, hn] at h
  · have hnat := toDigits_injective h
    omega
  · exact absurd (by rw [h]; exact List.mem_cons_self ..) (hminus m.toNat)
  · exact absurd (by rw [← h]; exact List.mem_cons_self ..) (hminus n.toNat)
  · have hnat := toDigits_injective (List.cons.inj h).2
    omega

/-- A literal, an integer, or a number with a fraction or an exponent. -/
theorem token_cases {j : Json} (h : j.WellFormed) (htoken : j.isToken = true) :
    (j = .null ∨ ∃ b, j = .bool b) ∨ (∃ n, j = .num n) ∨ ∃ text, j = .decimal text ∧ IsDecimal text := by
  cases h with
  | null => exact .inl (.inl rfl)
  | bool b => exact .inl (.inr ⟨b, rfl⟩)
  | num n => exact .inr (.inl ⟨n, rfl⟩)
  | decimal htext => exact .inr (.inr ⟨_, rfl, htext⟩)
  | str | arr | obj => cases htoken

theorem literal_char {j : Json} (h : j = .null ∨ ∃ b, j = .bool b) : ∃ c ∈ j.text.toList, isNumeralChar c = false := by
  obtain rfl | ⟨_ | _, rfl⟩ := h
  · exact ⟨'n', by decide, by decide⟩
  · exact ⟨'f', by decide, by decide⟩
  · exact ⟨'t', by decide, by decide⟩

theorem numeral_chars {j : Json} (h : (∃ n, j = .num n) ∨ ∃ text, j = .decimal text ∧ IsDecimal text) :
    ∀ c ∈ j.text.toList, isNumeralChar c = true := by
  intro c hc
  obtain ⟨n, rfl⟩ | ⟨text, rfl, hdecimal⟩ := h
  · rcases int_chars hc with hdigit | rfl
    · simp [isNumeralChar, hdigit]
    · rfl
  · rcases hdecimal.1 c hc with hdigit | hmem
    · simp [isNumeralChar, hdigit]
    · simp only [List.mem_cons, List.not_mem_nil, or_false] at hmem
      rcases hmem with rfl | rfl | rfl <;> rfl

theorem isTokenChar_of_isNumeralChar {c : Char} (h : isNumeralChar c = true) : isTokenChar c = true := by
  simp only [isNumeralChar, isTokenChar, Char.isAlphanum, Bool.or_eq_true, beq_iff_eq] at h ⊢
  rcases h with ((hdigit | hminus) | hdot) | rfl
  · exact .inl (.inl (.inr hdigit))
  · exact .inl (.inr hminus)
  · exact .inr hdot
  · decide

theorem token_chars {j : Json} (h : j.WellFormed) (htoken : j.isToken = true) :
    ∀ c ∈ j.text.toList, isTokenChar c = true := by
  rcases token_cases h htoken with (rfl | ⟨_ | _, rfl⟩) | hnumeral
  · exact List.all_eq_true.1 (by decide)
  · exact List.all_eq_true.1 (by decide)
  · exact List.all_eq_true.1 (by decide)
  · exact fun c hc => isTokenChar_of_isNumeralChar (numeral_chars hnumeral c hc)

theorem token_text_ne_nil {j : Json} (h : j.WellFormed) (htoken : j.isToken = true) : j.text.toList ≠ [] := by
  rcases token_cases h htoken with hliteral | ⟨n, rfl⟩ | ⟨text, rfl, -, c, hc, -⟩
  · obtain ⟨c, hc, -⟩ := literal_char hliteral
    exact List.ne_nil_of_mem hc
  · rcases int_text n with ⟨htext, -⟩ | ⟨htext, -⟩
    · exact fun hnil => absurd (htext.symm.trans hnil) Nat.toDigits_ne_nil
    · exact fun hnil => absurd (htext.symm.trans hnil) (by simp)
  · exact List.ne_nil_of_mem hc

/-- No two tokens share a text. -/
theorem token_text_injective {a b : Json} (ha : a.WellFormed) (hb : b.WellFormed) (htokena : a.isToken = true)
    (htokenb : b.isToken = true) (h : a.text.toList = b.text.toList) : a = b := by
  have hdiffer : ∀ {x y : Json}, (x = .null ∨ ∃ b, x = .bool b) →
      ((∃ n, y = .num n) ∨ ∃ text, y = .decimal text ∧ IsDecimal text) → x.text.toList ≠ y.text.toList := by
    intro x y hx hy heq
    obtain ⟨c, hc, hnumeral⟩ := literal_char hx
    rw [heq] at hc
    rw [numeral_chars hy c hc] at hnumeral
    cases hnumeral
  have hfraction : ∀ {n : Int} {text : String}, IsDecimal text → (num n).text.toList ≠ (decimal text).text.toList := by
    rintro n text ⟨-, c, hc, hmark⟩ heq
    have hint : c ∈ (toString n).toList := by
      rw [show (toString n).toList = text.toList from heq]
      exact hc
    simp only [List.mem_cons, List.not_mem_nil, or_false] at hmark
    rcases int_chars hint with hdigit | rfl
    · rcases hmark with rfl | rfl <;> cases hdigit
    · simp at hmark
  rcases token_cases ha htokena with hx | hx <;> rcases token_cases hb htokenb with hy | hy
  · rcases hx with rfl | ⟨_ | _, rfl⟩ <;> rcases hy with rfl | ⟨_ | _, rfl⟩ <;> first | rfl | exact absurd h (by decide)
  · exact absurd h (hdiffer hx hy)
  · exact absurd h.symm (hdiffer hy hx)
  · obtain ⟨n, rfl⟩ | ⟨s, rfl, hs⟩ := hx <;> obtain ⟨m, rfl⟩ | ⟨t, rfl, ht⟩ := hy
    · rw [int_text_injective h]
    · exact absurd h (hfraction ht)
    · exact absurd h.symm (hfraction hs)
    · rw [show s = t from String.toList_inj.1 h]

/-! Values. -/

/-- What may follow a value: nothing, or what goes on with or closes the array or object around it. -/
def Delimited (s : List Char) : Prop := ∀ c ∈ s.head?, c ∈ [',', ']', '}']

theorem itemTexts_eq (items : List Json) : itemTexts items = items.map text := by
  induction items with
  | nil => rfl
  | cons item items ih => rw [itemTexts, ih, List.map_cons]

theorem fieldTexts_eq (fields : List (String × Json)) :
    fieldTexts fields = fields.map fun f => quoted f.1 ++ ":" ++ f.2.text := by
  induction fields with
  | nil => rfl
  | cons f fields ih =>
    obtain ⟨key, value⟩ := f
    rw [fieldTexts, ih, List.map_cons]

theorem text_arr (items : List Json) : (arr items).text.toList =
    '[' :: ([','].intercalate (items.map fun item => item.text.toList) ++ [']']) := by
  simp [text, itemTexts_eq, Function.comp_def]

/-- The text of a field. -/
def fieldText (f : String × Json) : List Char := (quoted f.1).toList ++ ':' :: f.2.text.toList

theorem text_obj (fields : List (String × Json)) : (obj fields).text.toList =
    '\x7b' :: ([','].intercalate (fields.map fieldText) ++ ['\x7d']) := by
  have hfields : (fieldTexts fields).map String.toList = fields.map fieldText := by
    simp [fieldTexts_eq, fieldText, Function.comp_def]
  simp [text, hfields]

/-- The first character tells the kind of a value. -/
theorem text_head {j : Json} (h : j.WellFormed) : ∃ c cs, j.text.toList = c :: cs ∧
    ((j.isToken = true ∧ isTokenChar c = true) ∨ (c = quote ∧ ∃ s, j = .str s) ∨
      (c = '[' ∧ ∃ items, j = .arr items) ∨ c = '\x7b' ∧ ∃ fields, j = .obj fields) := by
  by_cases htoken : j.isToken = true
  · obtain ⟨c, cs, htext⟩ := List.exists_cons_of_ne_nil (token_text_ne_nil h htoken)
    exact ⟨c, cs, htext, .inl ⟨htoken, token_chars h htoken c (by rw [htext]; exact List.mem_cons_self ..)⟩⟩
  · cases j with
    | null | bool | num | decimal => exact absurd rfl htoken
    | str s => exact ⟨_, _, quoted_toList s, .inr (.inl ⟨rfl, s, rfl⟩)⟩
    | arr items => exact ⟨_, _, text_arr items, .inr (.inr (.inl ⟨rfl, items, rfl⟩))⟩
    | obj fields => exact ⟨_, _, text_obj fields, .inr (.inr (.inr ⟨rfl, fields, rfl⟩))⟩

theorem text_ne_stop {j : Json} (h : j.WellFormed) (s t : List Char) : j.text.toList ++ s ≠ ']' :: t := by
  obtain ⟨c, cs, htext, hkind⟩ := text_head h
  rw [htext]
  intro heq
  obtain rfl := (List.cons.inj heq).1
  rcases hkind with ⟨-, hchar⟩ | ⟨hchar, -⟩ | ⟨hchar, -⟩ | ⟨hchar, -⟩ <;> exact absurd hchar (by decide)

theorem fieldText_ne_stop (f : String × Json) (s t : List Char) : fieldText f ++ s ≠ '\x7d' :: t := by
  rw [fieldText, quoted_toList]
  exact fun heq => absurd (List.cons.inj heq).1 (by decide)

/-- Two values with the same kind of text, each before a delimiter, when one of them is a token. -/
theorem token_readsBack_text {a : Json} (ha : a.WellFormed) (htoken : a.isToken = true) :
    ReadsBack WellFormed Delimited (fun j => j.text.toList) a := by
  intro b s t hb hs ht heq
  have hdelimiter : ∀ {r : List Char}, Delimited r → ∀ c ∈ r.head?, isTokenChar c = false := by
    intro r hr c hc
    have hmem := hr c hc
    simp only [List.mem_cons, List.not_mem_nil, or_false] at hmem
    rcases hmem with rfl | rfl | rfl <;> decide
  have htokenb : b.isToken = true := by
    obtain ⟨c, cs, hca, hkind⟩ := text_head ha
    obtain ⟨d, ds, hdb, hkind'⟩ := text_head hb
    dsimp only at heq
    rw [hca, hdb] at heq
    obtain rfl := (List.cons.inj heq).1
    have hchar : isTokenChar c = true := token_chars ha htoken c (by rw [hca]; exact List.mem_cons_self ..)
    rcases hkind' with ⟨htokenb, -⟩ | ⟨rfl, -⟩ | ⟨rfl, -⟩ | ⟨rfl, -⟩
    · exact htokenb
    all_goals exact absurd hchar (by decide)
  obtain ⟨htext, hst⟩ := token_readsBack (token_chars ha htoken) (token_chars hb htokenb) (hdelimiter hs)
    (hdelimiter ht) heq
  exact ⟨token_text_injective ha hb htoken htokenb htext, hst⟩

/-- What opens a text other than a token's opens only texts of its kind. -/
theorem kind_of_head {b : Json} {c : Char} {r t : List Char} (hb : b.WellFormed) (h : c :: r = b.text.toList ++ t) :
    (c = quote → ∃ s, b = .str s) ∧ (c = '[' → ∃ items, b = .arr items) ∧ (c = '\x7b' → ∃ fields, b = .obj fields) := by
  obtain ⟨d, ds, htext, hkind⟩ := text_head hb
  rw [htext] at h
  obtain rfl := (List.cons.inj h).1
  rcases hkind with ⟨-, hchar⟩ | ⟨rfl, s, rfl⟩ | ⟨rfl, items, rfl⟩ | ⟨rfl, fields, rfl⟩
  · refine ⟨?_, ?_, ?_⟩ <;> rintro rfl <;> exact absurd hchar (by decide)
  · exact ⟨fun _ => ⟨s, rfl⟩, fun h => absurd h (by decide), fun h => absurd h (by decide)⟩
  · exact ⟨fun h => absurd h (by decide), fun _ => ⟨items, rfl⟩, fun h => absurd h (by decide)⟩
  · exact ⟨fun h => absurd h (by decide), fun h => absurd h (by decide), fun _ => ⟨fields, rfl⟩⟩

/-- A field can be told from its text, as its value can. -/
theorem fieldText_readsBack {f : String × Json}
    (h : ReadsBack WellFormed Delimited (fun j => j.text.toList) f.2) :
    ReadsBack (fun g : String × Json => g.2.WellFormed) Delimited fieldText f := by
  intro g s t hg hs ht heq
  simp only [fieldText, List.append_assoc, List.cons_append] at heq
  obtain ⟨hkey, hvalue⟩ := quoted_readsBack heq
  obtain ⟨hvalue, hst⟩ := h g.2 s t hg hs ht (List.cons.inj hvalue).2
  exact ⟨Prod.ext hkey hvalue, hst⟩

theorem delimited_cons {c : Char} (hc : c ∈ [',', ']', '\x7d']) (s : List Char) : Delimited (c :: s) := by
  intro d hd
  rw [← Option.some.inj hd]
  exact hc

/-- A value can be told from its text, before whatever may follow it. -/
theorem text_readsBack (a : Json) (ha : a.WellFormed) : ReadsBack WellFormed Delimited (fun j => j.text.toList) a := by
  induction a using induct with
  | scalar a harr hobj =>
    by_cases htoken : a.isToken = true
    · exact token_readsBack_text ha htoken
    · intro b s t hb _ _ heq
      cases a with
      | null | bool | num | decimal => exact absurd rfl htoken
      | arr items => exact absurd rfl (harr items)
      | obj fields => exact absurd rfl (hobj fields)
      | str u =>
        have hhead : (quoted u).toList ++ s = b.text.toList ++ t := heq
        rw [quoted_toList] at hhead
        obtain ⟨v, rfl⟩ := (kind_of_head hb hhead).1 rfl
        obtain ⟨rfl, hst⟩ := quoted_readsBack heq
        exact ⟨rfl, hst⟩
  | arr items ih =>
    intro b s t hb hs ht heq
    cases ha with
    | arr hitems =>
    dsimp only at heq
    rw [text_arr] at heq
    obtain ⟨items', rfl⟩ := (kind_of_head hb heq).2.1 rfl
    cases hb with
    | arr hitems' =>
    rw [text_arr, List.cons_append, List.cons_append, List.append_assoc, List.append_assoc] at heq
    obtain ⟨rfl, hst⟩ := list_readsBack (by decide) (delimited_cons (by simp)) (delimited_cons (by simp))
      (fun a s t ha => text_ne_stop ha s t) (fun item hitem => ih item hitem (hitems item hitem)) hitems hitems'
      (List.cons.inj heq).2
    exact ⟨rfl, hst⟩
  | obj fields ih =>
    intro b s t hb hs ht heq
    cases ha with
    | obj _ hfields =>
    dsimp only at heq
    rw [text_obj] at heq
    obtain ⟨fields', rfl⟩ := (kind_of_head hb heq).2.2 rfl
    cases hb with
    | obj _ hfields' =>
    rw [text_obj, List.cons_append, List.cons_append, List.append_assoc, List.append_assoc] at heq
    obtain ⟨rfl, hst⟩ := list_readsBack (by decide) (delimited_cons (by simp)) (delimited_cons (by simp))
      (fun f s t _ => fieldText_ne_stop f s t) (fun f hf => fieldText_readsBack (ih f hf (hfields f hf)))
      hfields hfields' (List.cons.inj heq).2
    exact ⟨rfl, hst⟩

/-- Two values with one text are one value. -/
theorem text_injective {a b : Json} (ha : a.WellFormed) (hb : b.WellFormed) (h : a.text = b.text) : a = b := by
  have hnil : Delimited [] := nofun
  have htext : a.text.toList ++ [] = b.text.toList ++ [] := by rw [h]
  exact (text_readsBack a ha b [] [] hb hnil hnil htext).1

end Json
end Fusions.Hetuflow
