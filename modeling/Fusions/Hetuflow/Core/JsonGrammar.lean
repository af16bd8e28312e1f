import Fusions.Hetuflow.Core.JsonText
import Fusions.Library.Separated
import Mathlib.Algebra.GroupWithZero.Nat
import Mathlib.Algebra.Order.BigOperators.Group.List
import Mathlib.Algebra.Order.Group.Nat

/-! The grammar of JSON: every text of a value, with the escapes and the white space that its writer chose. A text has
one value. -/
namespace Fusions.Hetuflow.Json
open Library

/-! Strings. -/

/-- The escapes of two characters, by the second of them. -/
def shortEscapes : List (Char × Char) :=
  [(quote, quote), (backslash, backslash), ('/', '/'), ('b', Char.ofNat 8), ('f', Char.ofNat 12), ('n', '\n'),
    ('r', '\r'), ('t', '\t')]

def hexDigit? (c : Char) : Option Nat :=
  if '0' ≤ c ∧ c ≤ '9' then some (c.toNat - 48)
  else if 'a' ≤ c ∧ c ≤ 'f' then some (c.toNat - 87)
  else if 'A' ≤ c ∧ c ≤ 'F' then some (c.toNat - 55)
  else none

/-- Four hexadecimal digits. -/
def codeUnit : List Char → Option Nat
  | [a, b, c, d] => do return (← hexDigit? a) * 4096 + (← hexDigit? b) * 256 + (← hexDigit? c) * 16 + (← hexDigit? d)
  | _ => none

def IsHigh (unit : Nat) : Prop := 0xD800 ≤ unit ∧ unit < 0xDC00

def IsLow (unit : Nat) : Prop := 0xDC00 ≤ unit ∧ unit < 0xE000

/-- A text of a character inside a string. -/
inductive IsChar : List Char → Char → Prop where
  | plain {c : Char} : c ∉ escaped → IsChar [c] c
  | short {e c : Char} : (e, c) ∈ shortEscapes → IsChar [backslash, e] c
  | unit {digits : List Char} {n : Nat} : codeUnit digits = some n → ¬ IsHigh n → ¬ IsLow n →
      IsChar (backslash :: 'u' :: digits) (Char.ofNat n)
  | pair {high low : List Char} {h l : Nat} : codeUnit high = some h → IsHigh h → codeUnit low = some l → IsLow l →
      IsChar (backslash :: 'u' :: (high ++ backslash :: 'u' :: low))
        (Char.ofNat (0x10000 + (h - 0xD800) * 0x400 + (l - 0xDC00)))

/-- A character with a text of it. -/
structure CharText where
  text : List Char
  char : Char
  isChar : IsChar text char

def IsString (text : List Char) (s : String) : Prop :=
  ∃ chars : List CharText, text = quote :: (chars.flatMap CharText.text ++ [quote]) ∧ s.toList = chars.map CharText.char

/-! Numbers and the other tokens. -/

def IsDigits (text : List Char) : Prop := text ≠ [] ∧ ∀ c ∈ text, c.isDigit = true

/-- Digits that no zero leads. -/
def IsInteger (text : List Char) : Prop := IsDigits text ∧ (text.head? = some '0' → text = ['0'])

def IsFraction (text : List Char) : Prop := text = [] ∨ ∃ digits, IsDigits digits ∧ text = '.' :: digits

def IsExponent (text : List Char) : Prop :=
  text = [] ∨
    ∃ e sign digits, e ∈ ['e', 'E'] ∧ sign ∈ [[], ['+'], ['-']] ∧ IsDigits digits ∧ text = e :: (sign ++ digits)

def IsNumber (text : List Char) : Prop :=
  ∃ sign integer fraction exponent, sign ∈ [[], ['-']] ∧ IsInteger integer ∧ IsFraction fraction ∧ IsExponent exponent ∧
    text = sign ++ integer ++ fraction ++ exponent

def literals : List (List Char × Json) :=
  [("null".toList, null), ("true".toList, bool true), ("false".toList, bool false)]

/-- A number that is not written as an integer is, keeps its text. -/
inductive IsToken : List Char → Json → Prop where
  | literal {text : List Char} {j : Json} : (text, j) ∈ literals → IsToken text j
  | num (n : Int) : IsToken (toString n).toList (num n)
  | decimal {text : List Char} : IsNumber text → (∀ n : Int, text ≠ (toString n).toList) →
      IsToken text (decimal (String.ofList text))

/-! Values. -/

def isSpace (c : Char) : Bool := c == ' ' || c == '\t' || c == '\n' || c == '\r'

def IsSpace (text : List Char) : Prop := ∀ c ∈ text, isSpace c = true

/-- A value in its text, with the white space around it. -/
structure Element where
  before : List Char
  core : List Char
  after : List Char
  value : Json

/-- A name in its text, with the white space around it, and its value. -/
structure Member where
  before : List Char
  core : List Char
  after : List Char
  name : String
  element : Element

def Element.text (e : Element) : List Char := e.before ++ e.core ++ e.after

def Element.Spaced (e : Element) : Prop := IsSpace e.before ∧ IsSpace e.after

def Member.text (m : Member) : List Char := m.before ++ m.core ++ m.after ++ ':' :: m.element.text

def Member.field (m : Member) : String × Json := (m.name, m.element.value)

def Member.Named (m : Member) : Prop := IsSpace m.before ∧ IsString m.core m.name ∧ IsSpace m.after ∧ m.element.Spaced

inductive IsValue : List Char → Json → Prop where
  | token {text : List Char} {j : Json} : IsToken text j → IsValue text j
  | str {text : List Char} {s : String} : IsString text s → IsValue text (str s)
  | noItems {space : List Char} : IsSpace space → IsValue ('[' :: (space ++ [']'])) (arr [])
  | arr {items : List Element} : items ≠ [] → (∀ e ∈ items, e.Spaced) → (∀ e ∈ items, IsValue e.core e.value) →
      IsValue ('[' :: ([','].intercalate (items.map Element.text) ++ [']'])) (arr (items.map Element.value))
  | noMembers {space : List Char} : IsSpace space → IsValue ('\x7b' :: (space ++ ['\x7d'])) (obj [])
  | obj {members : List Member} : members ≠ [] → (∀ m ∈ members, m.Named) →
      (∀ m ∈ members, IsValue m.element.core m.element.value) →
      IsValue ('\x7b' :: ([','].intercalate (members.map Member.text) ++ ['\x7d'])) (obj (members.map Member.field))

/-- A text is one value, with white space around it. -/
def IsText (text : String) (j : Json) : Prop :=
  ∃ e : Element, e.Spaced ∧ IsValue e.core e.value ∧ e.text = text.toList ∧ e.value = j

theorem mem_escaped {c : Char} : c ∈ escaped ↔ c.toNat < 32 ∨ c = quote ∨ c = backslash := by
  have hcontrol : c ∈ (List.range 32).map Char.ofNat ↔ c.toNat < 32 := by
    refine ⟨fun h => ?_, fun h => List.mem_map.2 ⟨c.toNat, List.mem_range.2 h, Char.ofNat_toNat c⟩⟩
    have hall : (((List.range 32).map Char.ofNat).all fun c => c.toNat < 32) = true := by decide +kernel
    exact of_decide_eq_true (List.all_eq_true.1 hall c h)
  simp [escaped, hcontrol]

/-! A text of a character ends where the next one begins. -/

theorem shortEscapes_functional : ∀ p ∈ shortEscapes, ∀ q ∈ shortEscapes, p.1 = q.1 → p.2 = q.2 := by
  have hall : (shortEscapes.all fun p => shortEscapes.all fun q => p.1 = q.1 → p.2 = q.2) = true := by decide +kernel
  intro p hp q hq
  exact of_decide_eq_true (List.all_eq_true.1 (List.all_eq_true.1 hall p hp) q hq)

theorem ne_u_of_shortEscapes {e c : Char} (h : (e, c) ∈ shortEscapes) : e ≠ 'u' := by
  have hall : (shortEscapes.all fun p => p.1 ≠ 'u') = true := by decide +kernel
  exact of_decide_eq_true (List.all_eq_true.1 hall (e, c) h)

theorem length_of_codeUnit {digits : List Char} {n : Nat} (h : codeUnit digits = some n) : digits.length = 4 := by
  unfold codeUnit at h
  split at h
  · rfl
  · cases h

theorem backslash_escaped : backslash ∈ escaped := mem_escaped.2 (.inr (.inr rfl))

theorem quote_escaped : quote ∈ escaped := mem_escaped.2 (.inr (.inl rfl))

/-- Two code units at one place are one. -/
theorem codeUnit_readsBack {u v s t : List Char} {m n : Nat} (hu : codeUnit u = some m) (hv : codeUnit v = some n)
    (h : u ++ s = v ++ t) : u = v ∧ m = n ∧ s = t := by
  obtain ⟨rfl, hst⟩ := List.append_inj h (by rw [length_of_codeUnit hu, length_of_codeUnit hv])
  exact ⟨rfl, Option.some.inj (hu.symm.trans hv), hst⟩

theorem isChar_readsBack {u v s t : List Char} {a b : Char} (hu : IsChar u a) (hv : IsChar v b) (h : u ++ s = v ++ t) :
    u = v ∧ a = b ∧ s = t := by
  cases hu with
  | plain hc =>
    cases hv with
    | plain hd =>
      obtain ⟨rfl, hst⟩ := List.cons.inj h
      exact ⟨rfl, rfl, hst⟩
    | short | unit | pair =>
      obtain ⟨rfl, -⟩ := List.cons.inj h
      exact absurd backslash_escaped hc
  | short he =>
    cases hv with
    | plain hd =>
      obtain ⟨rfl, -⟩ := List.cons.inj h
      exact absurd backslash_escaped hd
    | short hf =>
      obtain ⟨rfl, hst⟩ := List.cons.inj (List.cons.inj h).2
      exact ⟨rfl, shortEscapes_functional _ he _ hf rfl, hst⟩
    | unit | pair => exact absurd (List.cons.inj (List.cons.inj h).2).1 (ne_u_of_shortEscapes he)
  | unit hm hhigh hlow =>
    cases hv with
    | plain hd =>
      obtain ⟨rfl, -⟩ := List.cons.inj h
      exact absurd backslash_escaped hd
    | short hf => exact absurd (List.cons.inj (List.cons.inj h).2).1.symm (ne_u_of_shortEscapes hf)
    | unit hn _ _ =>
      obtain ⟨rfl, rfl, hst⟩ := codeUnit_readsBack hm hn (List.cons.inj (List.cons.inj h).2).2
      exact ⟨rfl, rfl, hst⟩
    | pair hh hhigh' _ _ =>
      simp only [List.cons_append, List.append_assoc, List.cons.injEq, true_and] at h
      obtain ⟨-, rfl, -⟩ := codeUnit_readsBack hm hh h
      exact absurd hhigh' hhigh
  | pair hm hhigh hl _ =>
    cases hv with
    | plain hd =>
      obtain ⟨rfl, -⟩ := List.cons.inj h
      exact absurd backslash_escaped hd
    | short hf => exact absurd (List.cons.inj (List.cons.inj h).2).1.symm (ne_u_of_shortEscapes hf)
    | unit hn hhigh' _ =>
      simp only [List.cons_append, List.append_assoc, List.cons.injEq, true_and] at h
      obtain ⟨-, rfl, -⟩ := codeUnit_readsBack hm hn h
      exact absurd hhigh hhigh'
    | pair hn _ hl' _ =>
      simp only [List.cons_append, List.append_assoc, List.cons.injEq, true_and] at h
      obtain ⟨rfl, rfl, hrest⟩ := codeUnit_readsBack hm hn h
      obtain ⟨rfl, rfl, hst⟩ := codeUnit_readsBack hl hl' (List.cons.inj (List.cons.inj hrest).2).2
      exact ⟨rfl, rfl, hst⟩

theorem isChar_ne_quote {u : List Char} {a : Char} (hu : IsChar u a) (s t : List Char) : u ++ s ≠ quote :: t := by
  intro h
  cases hu with
  | plain hc =>
    obtain ⟨rfl, -⟩ := List.cons.inj h
    exact hc quote_escaped
  | short | unit | pair => exact absurd (List.cons.inj h).1 (by decide)

theorem isString_readsBack {u v r w : List Char} {s t : String} (hu : IsString u s) (hv : IsString v t)
    (h : u ++ r = v ++ w) : u = v ∧ s = t ∧ r = w := by
  obtain ⟨xs, rfl, hs⟩ := hu
  obtain ⟨ys, rfl, ht⟩ := hv
  have hcode : ∀ (a b : CharText) (p q : List Char), a.text ++ p = b.text ++ q → a = b ∧ p = q := by
    intro a b p q hpq
    obtain ⟨htext, hchar, hrest⟩ := isChar_readsBack a.isChar b.isChar hpq
    cases a
    cases b
    obtain rfl := htext
    obtain rfl := hchar
    exact ⟨rfl, hrest⟩
  simp only [List.cons_append, List.append_assoc, List.nil_append, List.cons.injEq, true_and] at h
  obtain ⟨rfl, hrw⟩ := codes_readsBack hcode (fun a => isChar_ne_quote a.isChar) h
  exact ⟨rfl, String.toList_inj.1 (hs.trans ht.symm), hrw⟩

/-- A string in a text of each of its characters. -/
theorem isString_of_code {s : String} (code : Char → List Char) (h : ∀ c ∈ s.toList, IsChar (code c) c) :
    IsString (quote :: (s.toList.flatMap code ++ [quote])) s := by
  refine ⟨s.toList.attach.map fun c => ⟨code c.1, c.1, h c.1 c.2⟩, ?_, ?_⟩
  · have hcodes : (s.toList.attach.map Subtype.val).flatMap code = s.toList.attach.flatMap fun c => code c.1 :=
      List.flatMap_map ..
    rw [List.attach_map_subtype_val] at hcodes
    rw [List.flatMap_map, hcodes]
  · simp [List.map_map, Function.comp_def]

theorem isString_plain {s : String} (h : ∀ c ∈ s.toList, c ∉ escaped) :
    IsString (quote :: (s.toList ++ [quote])) s := by
  have hcode := isString_of_code (fun c => [c]) fun c hc => .plain (h c hc)
  rwa [List.flatMap_singleton'] at hcode

/-! So does a token. -/

def isNumberChar (c : Char) : Bool := c.isDigit || c == '-' || c == '+' || c == '.' || c == 'e' || c == 'E'

def isWordChar (c : Char) : Bool := isTokenChar c || c == '+'

theorem isNumberChar_of_isDigit {c : Char} (h : c.isDigit = true) : isNumberChar c = true := by simp [isNumberChar, h]

theorem isWordChar_of_isNumberChar {c : Char} (h : isNumberChar c = true) : isWordChar c = true := by
  simp only [isNumberChar, Bool.or_eq_true, beq_iff_eq] at h
  rcases h with ((((hdigit | rfl) | rfl) | rfl) | rfl) | rfl
  · simp [isWordChar, isTokenChar, Char.isAlphanum, hdigit]
  all_goals decide

theorem number_chars {text : List Char} (h : IsNumber text) : text ≠ [] ∧ ∀ c ∈ text, isNumberChar c = true := by
  obtain ⟨sign, integer, fraction, exponent, hsign, ⟨⟨hne, hinteger⟩, -⟩, hfraction, hexponent, rfl⟩ := h
  have hsigned : ∀ {sign : List Char}, sign ∈ [[], ['+'], ['-']] → ∀ c ∈ sign, isNumberChar c = true := by
    intro sign hmem c hc
    simp only [List.mem_cons, List.not_mem_nil, or_false] at hmem
    rcases hmem with rfl | rfl | rfl
    · cases hc
    all_goals rw [List.mem_singleton.1 hc]; decide
  refine ⟨by simp [hne], ?_⟩
  simp only [List.forall_mem_append]
  refine ⟨⟨⟨hsigned (by grind), fun c hc => isNumberChar_of_isDigit (hinteger c hc)⟩, ?_⟩, ?_⟩
  · rcases hfraction with rfl | ⟨digits, ⟨-, hdigits⟩, rfl⟩
    · exact nofun
    · exact List.forall_mem_cons.2 ⟨by decide, fun c hc => isNumberChar_of_isDigit (hdigits c hc)⟩
  · rcases hexponent with rfl | ⟨e, sign, digits, he, hsign, ⟨-, hdigits⟩, rfl⟩
    · exact nofun
    · refine List.forall_mem_cons.2 ⟨?_, List.forall_mem_append.2 ⟨hsigned hsign, ?_⟩⟩
      · simp only [List.mem_cons, List.not_mem_nil, or_false] at he
        rcases he with rfl | rfl <;> decide
      · exact fun c hc => isNumberChar_of_isDigit (hdigits c hc)

theorem int_text_chars (n : Int) :
    (toString n).toList ≠ [] ∧ ∀ c ∈ (toString n).toList, isNumberChar c = true := by
  refine ⟨token_text_ne_nil (.num n) rfl, fun c hc => ?_⟩
  rcases int_chars hc with hdigit | rfl
  · exact isNumberChar_of_isDigit hdigit
  · rfl

theorem literal_chars {text : List Char} {j : Json} (h : (text, j) ∈ literals) :
    text ≠ [] ∧ (∀ c ∈ text, isWordChar c = true) ∧ ∃ c ∈ text, isNumberChar c = false := by
  simp only [literals, List.mem_cons, List.not_mem_nil, or_false, Prod.mk.injEq] at h
  rcases h with ⟨rfl, -⟩ | ⟨rfl, -⟩ | ⟨rfl, -⟩
  · exact ⟨by decide, List.all_eq_true.1 (by decide), 'n', by decide, by decide⟩
  · exact ⟨by decide, List.all_eq_true.1 (by decide), 't', by decide, by decide⟩
  · exact ⟨by decide, List.all_eq_true.1 (by decide), 'f', by decide, by decide⟩

theorem isToken_chars {text : List Char} {j : Json} (h : IsToken text j) :
    text ≠ [] ∧ ∀ c ∈ text, isWordChar c = true := by
  cases h with
  | literal h => exact ⟨(literal_chars h).1, (literal_chars h).2.1⟩
  | num n => exact ⟨(int_text_chars n).1, fun c hc => isWordChar_of_isNumberChar ((int_text_chars n).2 c hc)⟩
  | decimal h _ => exact ⟨(number_chars h).1, fun c hc => isWordChar_of_isNumberChar ((number_chars h).2 c hc)⟩

theorem literal_not_number {text : List Char} {j : Json} (h : (text, j) ∈ literals) :
    ¬ ∀ c ∈ text, isNumberChar c = true := by
  obtain ⟨-, -, c, hc, hother⟩ := literal_chars h
  intro hall
  rw [hall c hc] at hother
  cases hother

theorem isToken_functional {text text' : List Char} {a b : Json} (ha : IsToken text a) (hb : IsToken text' b)
    (h : text = text') : a = b := by
  cases ha with
  | literal ha =>
    cases hb with
    | literal hb =>
      subst h
      simp only [literals, List.mem_cons, List.not_mem_nil, or_false, Prod.mk.injEq] at ha hb
      rcases ha with ⟨rfl, rfl⟩ | ⟨rfl, rfl⟩ | ⟨rfl, rfl⟩ <;> rcases hb with ⟨hb, rfl⟩ | ⟨hb, rfl⟩ | ⟨hb, rfl⟩ <;>
        first | rfl | exact absurd hb (by decide)
    | num n =>
      subst h
      exact absurd (int_text_chars n).2 (literal_not_number ha)
    | decimal hnumber _ =>
      subst h
      exact absurd (number_chars hnumber).2 (literal_not_number ha)
  | num n =>
    cases hb with
    | literal hb =>
      subst h
      exact absurd (int_text_chars n).2 (literal_not_number hb)
    | num m => rw [int_text_injective h]
    | decimal _ hother => exact absurd h.symm (hother n)
  | decimal hnumber hother =>
    cases hb with
    | literal hb =>
      subst h
      exact absurd (number_chars hnumber).2 (literal_not_number hb)
    | num m => exact absurd h (hother m)
    | decimal _ _ => rw [h]

/-! White space. -/

/-- After white space comes a character that is neither white space nor `stop`. -/
def Starts (stop : Char) (text : List Char) : Prop :=
  ∃ before c rest, IsSpace before ∧ isSpace c = false ∧ c ≠ stop ∧ text = before ++ c :: rest

variable {stop : Char} {text : List Char}

theorem Starts.append (h : Starts stop text) (rest : List Char) : Starts stop (text ++ rest) := by
  obtain ⟨before, c, behind, hbefore, hc, hne, rfl⟩ := h
  exact ⟨before, c, behind ++ rest, hbefore, hc, hne, by simp⟩

theorem not_isSpace_cons {c : Char} (h : isSpace c = false) {rest : List Char} :
    ∀ x ∈ (c :: rest).head?, isSpace x = false := by
  intro x hx
  obtain rfl := Option.some.inj hx
  exact h

theorem Starts.ne (h : Starts stop text) (hstop : isSpace stop = false) {space : List Char} (hspace : IsSpace space)
    (s t : List Char) : text ++ s ≠ space ++ stop :: t := by
  obtain ⟨before, c, rest, hbefore, hc, hne, rfl⟩ := h
  intro heq
  rw [List.append_assoc] at heq
  obtain ⟨-, hrest⟩ := token_readsBack hbefore hspace (not_isSpace_cons hc) (not_isSpace_cons hstop) heq
  exact hne (List.cons.inj hrest).1

theorem Starts.ne_stop (h : Starts stop text) (hstop : isSpace stop = false) (s t : List Char) :
    text ++ s ≠ stop :: t := by
  have hnil : IsSpace [] := nofun
  exact h.ne hstop hnil s t

theorem space_readsBack (hstop : isSpace stop = false) {u v s t : List Char} (hu : IsSpace u) (hv : IsSpace v)
    (h : u ++ stop :: s = v ++ stop :: t) : u = v ∧ s = t := by
  obtain ⟨huv, hst⟩ := token_readsBack hu hv (not_isSpace_cons hstop) (not_isSpace_cons hstop) h
  exact ⟨huv, (List.cons.inj hst).2⟩

theorem starts_intercalate {texts : List (List Char)} (hne : texts ≠ []) (h : ∀ text ∈ texts, Starts stop text) :
    Starts stop ([','].intercalate texts) := by
  obtain ⟨first, texts, rfl⟩ := List.exists_cons_of_ne_nil hne
  have hfirst := h first (List.mem_cons_self ..)
  cases texts with
  | nil => simpa using hfirst
  | cons second texts =>
    rw [List.intercalate_cons_cons, List.append_assoc]
    exact hfirst.append _

/-- What may follow a value. -/
def Stops (s : List Char) : Prop := ∀ c ∈ s.head?, isSpace c = true ∨ c ∈ [',', ']', '}']

theorem stops_append {after s : List Char} (hafter : IsSpace after) (hs : Delimited s) : Stops (after ++ s) := by
  cases after with
  | nil => exact fun c hc => .inr (hs c hc)
  | cons d after =>
    intro c hc
    obtain rfl := Option.some.inj hc
    exact .inl (hafter d (List.mem_cons_self ..))

theorem isSpace_of_delimited {s : List Char} (hs : Delimited s) : ∀ c ∈ s.head?, isSpace c = false := by
  intro c hc
  have hmem := hs c hc
  simp only [List.mem_cons, List.not_mem_nil, or_false] at hmem
  rcases hmem with rfl | rfl | rfl <;> decide

theorem isWordChar_of_stops {s : List Char} (hs : Stops s) : ∀ c ∈ s.head?, isWordChar c = false := by
  intro c hc
  rcases hs c hc with hspace | hmem
  · simp only [isSpace, Bool.or_eq_true, beq_iff_eq] at hspace
    rcases hspace with ((rfl | rfl) | rfl) | rfl <;> decide
  · simp only [List.mem_cons, List.not_mem_nil, or_false] at hmem
    rcases hmem with rfl | rfl | rfl <;> decide

/-! Values. -/

inductive Shape where
  | token | str | arr | obj
  deriving DecidableEq

/-- The shape that a character opens. -/
def shape (c : Char) : Shape :=
  if c = quote then .str else if c = '[' then .arr else if c = '{' then .obj else .token

def shapeOf : Json → Shape
  | .str _ => .str
  | .arr _ => .arr
  | .obj _ => .obj
  | _ => .token

theorem shapeOf_token {j : Json} (h : IsToken text j) : shapeOf j = .token := by
  cases h with
  | num | decimal => rfl
  | literal h =>
    simp only [literals, List.mem_cons, List.not_mem_nil, or_false, Prod.mk.injEq] at h
    rcases h with ⟨-, rfl⟩ | ⟨-, rfl⟩ | ⟨-, rfl⟩ <;> rfl

theorem word_head {c : Char} (h : isWordChar c = true) :
    isSpace c = false ∧ c ≠ ']' ∧ c ≠ '}' ∧ shape c = .token := by
  have hne : ∀ d, isWordChar d = false → c ≠ d := by
    rintro d hd rfl
    rw [h] at hd
    cases hd
  have hspace := hne ' ' (by decide)
  have htab := hne '\t' (by decide)
  have hline := hne '\n' (by decide)
  have hreturn := hne '\r' (by decide)
  refine ⟨by simp [isSpace, hspace, htab, hline, hreturn], hne _ (by decide), hne _ (by decide), ?_⟩
  rw [shape, if_neg (hne _ (by decide)), if_neg (hne _ (by decide)), if_neg (hne _ (by decide))]

/-- The first character of a value tells its shape. -/
theorem isValue_head {j : Json} (h : IsValue text j) : ∃ c cs, text = c :: cs ∧ isSpace c = false ∧ c ≠ ']' ∧
    c ≠ '}' ∧ shape c = shapeOf j := by
  cases h with
  | token h =>
    obtain ⟨hne, hchars⟩ := isToken_chars h
    obtain ⟨c, cs, rfl⟩ := List.exists_cons_of_ne_nil hne
    obtain ⟨hspace, hbracket, hbrace, hshape⟩ := word_head (hchars c (List.mem_cons_self ..))
    exact ⟨c, cs, rfl, hspace, hbracket, hbrace, hshape.trans (shapeOf_token h).symm⟩
  | str h =>
    obtain ⟨chars, rfl, -⟩ := h
    exact ⟨_, _, rfl, by decide, by decide, by decide, rfl⟩
  | noItems | arr | noMembers | obj => exact ⟨_, _, rfl, by decide, by decide, by decide, rfl⟩

theorem starts_element {e : Element} (hspaced : e.Spaced) (h : IsValue e.core e.value) : Starts ']' e.text := by
  obtain ⟨c, cs, hcore, hspace, hne, -⟩ := isValue_head h
  exact ⟨e.before, c, cs ++ e.after, hspaced.1, hspace, hne, by simp [Element.text, hcore]⟩

theorem starts_member {m : Member} (h : m.Named) : Starts '}' m.text := by
  obtain ⟨hbefore, ⟨chars, hcore, -⟩, -, -⟩ := h
  exact ⟨m.before, quote, _, hbefore, by decide, by decide, by rw [Member.text, hcore]; simp; rfl⟩

/-- A value in its text, before whatever may follow it. -/
def ValueReadsBack (text : List Char) (j : Json) : Prop :=
  ReadsBack (fun p : List Char × Json => IsValue p.1 p.2) Stops Prod.fst (text, j)

theorem element_readsBack {e : Element} (hspaced : e.Spaced) (hvalue : IsValue e.core e.value)
    (h : ValueReadsBack e.core e.value) :
    ReadsBack (fun e => e.Spaced ∧ IsValue e.core e.value) Delimited Element.text e := by
  rintro f s t ⟨hspaced', hvalue'⟩ hs ht heq
  simp only [Element.text, List.append_assoc] at heq
  obtain ⟨c, cs, hc, hspace, -⟩ := isValue_head hvalue
  obtain ⟨d, ds, hd, hspace', -⟩ := isValue_head hvalue'
  obtain ⟨hbefore, hcore⟩ := token_readsBack hspaced.1 hspaced'.1 (by rw [hc]; exact not_isSpace_cons hspace)
    (by rw [hd]; exact not_isSpace_cons hspace') heq
  obtain ⟨hpair, hrest⟩ := h (f.core, f.value) _ _ hvalue' (stops_append hspaced.2 hs) (stops_append hspaced'.2 ht)
    hcore
  obtain ⟨hafter, hst⟩ := token_readsBack hspaced.2 hspaced'.2 (isSpace_of_delimited hs) (isSpace_of_delimited ht) hrest
  obtain ⟨htext, hjson⟩ := Prod.mk.inj hpair
  cases e
  cases f
  simp only at hbefore htext hafter hjson
  subst hbefore htext hafter hjson
  exact ⟨rfl, hst⟩

theorem member_readsBack {m : Member} (hnamed : m.Named) (hvalue : IsValue m.element.core m.element.value)
    (h : ValueReadsBack m.element.core m.element.value) :
    ReadsBack (fun m => m.Named ∧ IsValue m.element.core m.element.value) Delimited Member.text m := by
  rintro n s t ⟨⟨hbefore', hname', hafter', hspaced'⟩, hvalue'⟩ hs ht heq
  obtain ⟨hbefore, hname, hafter, hspaced⟩ := hnamed
  have hopens : ∀ {core : List Char} {name : String} {rest : List Char}, IsString core name →
      ∀ x ∈ (core ++ rest).head?, isSpace x = false := by
    rintro core name rest ⟨chars, rfl, -⟩
    exact not_isSpace_cons (by decide)
  simp only [Member.text, List.append_assoc, List.cons_append] at heq
  obtain ⟨hb, heq⟩ := token_readsBack hbefore hbefore' (hopens hname) (hopens hname') heq
  obtain ⟨hc, hn, heq⟩ := isString_readsBack hname hname' heq
  obtain ⟨ha, heq⟩ := token_readsBack hafter hafter' (not_isSpace_cons (by decide)) (not_isSpace_cons (by decide)) heq
  obtain ⟨he, hst⟩ := element_readsBack hspaced hvalue h n.element s t ⟨hspaced', hvalue'⟩ hs ht (List.cons.inj heq).2
  cases m
  cases n
  simp only at hb hc hn ha he
  subst hb hc hn ha he
  exact ⟨rfl, hst⟩

theorem shapeOf_eq {u v s t : List Char} {a b : Json} (ha : IsValue u a) (hb : IsValue v b) (h : u ++ s = v ++ t) :
    shapeOf a = shapeOf b := by
  obtain ⟨c, cs, rfl, -, -, -, hshape⟩ := isValue_head ha
  obtain ⟨d, ds, rfl, -, -, -, hshape'⟩ := isValue_head hb
  obtain ⟨rfl, -⟩ := List.cons.inj h
  exact hshape.symm.trans hshape'

theorem starts_items {items : List Element} (hne : items ≠ []) (hspaced : ∀ e ∈ items, e.Spaced)
    (hvalues : ∀ e ∈ items, IsValue e.core e.value) : Starts ']' ([','].intercalate (items.map Element.text)) := by
  refine starts_intercalate (by simpa using hne) fun text htext => ?_
  obtain ⟨e, he, rfl⟩ := List.mem_map.1 htext
  exact starts_element (hspaced e he) (hvalues e he)

theorem starts_members {members : List Member} (hne : members ≠ []) (hnamed : ∀ m ∈ members, m.Named) :
    Starts '}' ([','].intercalate (members.map Member.text)) := by
  refine starts_intercalate (by simpa using hne) fun text htext => ?_
  obtain ⟨m, hm, rfl⟩ := List.mem_map.1 htext
  exact starts_member (hnamed m hm)

/-- By induction on the first of two values at one place; the second has its shape. -/
theorem isValue_readsBack {j : Json} (h : IsValue text j) : ValueReadsBack text j := by
  induction h with
  | token h =>
    rintro ⟨v, b⟩ s t hb hs ht heq
    have hshape := (shapeOf_eq (.token h) hb heq).symm.trans (shapeOf_token h)
    cases hb with
    | token h' =>
      obtain ⟨rfl, hst⟩ := token_readsBack (isToken_chars h).2 (isToken_chars h').2 (isWordChar_of_stops hs)
        (isWordChar_of_stops ht) heq
      rw [isToken_functional h h' rfl]
      exact ⟨rfl, hst⟩
    | str | noItems | arr | noMembers | obj => cases hshape
  | str h =>
    rintro ⟨v, b⟩ s t hb hs ht heq
    have hshape := shapeOf_eq (.str h) hb heq
    cases hb with
    | str h' =>
      obtain ⟨rfl, rfl, hst⟩ := isString_readsBack h h' heq
      exact ⟨rfl, hst⟩
    | token h' => cases hshape.trans (shapeOf_token h')
    | noItems | arr | noMembers | obj => cases hshape
  | noItems h =>
    rintro ⟨v, b⟩ s t hb hs ht heq
    have hshape := shapeOf_eq (.noItems h) hb heq
    cases hb with
    | noItems h' =>
      simp only [List.cons_append, List.append_assoc, List.cons.injEq, true_and, List.nil_append] at heq
      obtain ⟨rfl, hst⟩ := space_readsBack (by decide) h h' heq
      exact ⟨rfl, hst⟩
    | arr hne hspaced hvalues =>
      simp only [List.cons_append, List.append_assoc, List.cons.injEq, true_and, List.nil_append] at heq
      exact absurd heq.symm ((starts_items hne hspaced hvalues).ne (by decide) h _ _)
    | token h' => cases hshape.trans (shapeOf_token h')
    | str | noMembers | obj => cases hshape
  | arr hne hspaced hvalues ih =>
    rintro ⟨v, b⟩ s t hb hs ht heq
    have hshape := shapeOf_eq (.arr hne hspaced hvalues) hb heq
    cases hb with
    | noItems h' =>
      simp only [List.cons_append, List.append_assoc, List.cons.injEq, true_and, List.nil_append] at heq
      exact absurd heq ((starts_items hne hspaced hvalues).ne (by decide) h' _ _)
    | arr hne' hspaced' hvalues' =>
      simp only [List.cons_append, List.append_assoc, List.cons.injEq, true_and, List.nil_append] at heq
      obtain ⟨rfl, hst⟩ := list_readsBack (by decide) (delimited_cons (by simp)) (delimited_cons (by simp))
        (fun e s t he => (starts_element he.1 he.2).ne_stop (by decide) s t)
        (fun e he => element_readsBack (hspaced e he) (hvalues e he) (ih e he))
        (fun e he => ⟨hspaced e he, hvalues e he⟩) (fun e he => ⟨hspaced' e he, hvalues' e he⟩) heq
      exact ⟨rfl, hst⟩
    | token h' => cases hshape.trans (shapeOf_token h')
    | str | noMembers | obj => cases hshape
  | noMembers h =>
    rintro ⟨v, b⟩ s t hb hs ht heq
    have hshape := shapeOf_eq (.noMembers h) hb heq
    cases hb with
    | noMembers h' =>
      simp only [List.cons_append, List.append_assoc, List.cons.injEq, true_and, List.nil_append] at heq
      obtain ⟨rfl, hst⟩ := space_readsBack (by decide) h h' heq
      exact ⟨rfl, hst⟩
    | obj hne hnamed hvalues =>
      simp only [List.cons_append, List.append_assoc, List.cons.injEq, true_and, List.nil_append] at heq
      exact absurd heq.symm ((starts_members hne hnamed).ne (by decide) h _ _)
    | token h' => cases hshape.trans (shapeOf_token h')
    | str | noItems | arr => cases hshape
  | obj hne hnamed hvalues ih =>
    rintro ⟨v, b⟩ s t hb hs ht heq
    have hshape := shapeOf_eq (.obj hne hnamed hvalues) hb heq
    cases hb with
    | noMembers h' =>
      simp only [List.cons_append, List.append_assoc, List.cons.injEq, true_and, List.nil_append] at heq
      exact absurd heq ((starts_members hne hnamed).ne (by decide) h' _ _)
    | obj hne' hnamed' hvalues' =>
      simp only [List.cons_append, List.append_assoc, List.cons.injEq, true_and, List.nil_append] at heq
      obtain ⟨rfl, hst⟩ := list_readsBack (by decide) (delimited_cons (by simp)) (delimited_cons (by simp))
        (fun m s t hm => (starts_member hm.1).ne_stop (by decide) s t)
        (fun m hm => member_readsBack (hnamed m hm) (hvalues m hm) (ih m hm))
        (fun m hm => ⟨hnamed m hm, hvalues m hm⟩) (fun m hm => ⟨hnamed' m hm, hvalues' m hm⟩) heq
      exact ⟨rfl, hst⟩
    | token h' => cases hshape.trans (shapeOf_token h')
    | str | noItems | arr => cases hshape

theorem isText_of_isValue {text : String} {j : Json} (h : IsValue text.toList j) : IsText text j :=
  ⟨⟨[], text.toList, [], j⟩, ⟨nofun, nofun⟩, h, List.append_nil _, rfl⟩

/-- A text has one value. -/
theorem isText_functional {text : String} {a b : Json} (ha : IsText text a) (hb : IsText text b) : a = b := by
  obtain ⟨e, hspaced, hvalue, htext, rfl⟩ := ha
  obtain ⟨f, hspaced', hvalue', htext', rfl⟩ := hb
  have hnil : Delimited [] := nofun
  have heq : e.text ++ [] = f.text ++ [] := by rw [htext, htext']
  rw [(element_readsBack hspaced hvalue (isValue_readsBack hvalue) f [] [] ⟨hspaced', hvalue'⟩ hnil hnil heq).1]

/-! The least length of a text. -/

/-- The length of the shortest text of a character inside a string. -/
def charLength (c : Char) : Nat := if c ∈ escaped then 2 else 1

def stringLength (s : String) : Nat := 2 + (s.toList.map charLength).sum

/-- No text of a string or an integer is shorter. -/
def leastLength : Json → Nat
  | .num n => (toString n).toList.length
  | .str s => stringLength s
  | _ => 0

theorem charLength_le {c : Char} (h : IsChar text c) : charLength c ≤ text.length := by
  cases h with
  | plain hc => simp [charLength, hc]
  | short | unit | pair =>
    unfold charLength
    split <;> simp

theorem stringLength_le {s : String} (h : IsString text s) : stringLength s ≤ text.length := by
  obtain ⟨chars, rfl, hs⟩ := h
  have hsum : ((chars.map CharText.char).map charLength).sum ≤ (chars.flatMap CharText.text).length := by
    rw [List.map_map, List.length_flatMap]
    exact List.sum_le_sum fun c _ => charLength_le c.isChar
  rw [stringLength, hs]
  simp only [List.length_cons, List.length_append, List.length_nil]
  omega

theorem leastLength_le {j : Json} (h : IsValue text j) : leastLength j ≤ text.length := by
  cases h with
  | str h => exact stringLength_le h
  | noItems | arr | noMembers | obj => exact Nat.zero_le _
  | token h =>
    cases h with
    | num n => exact Nat.le_refl _
    | decimal => exact Nat.zero_le _
    | literal h =>
      simp only [literals, List.mem_cons, List.not_mem_nil, or_false, Prod.mk.injEq] at h
      rcases h with ⟨-, rfl⟩ | ⟨-, rfl⟩ | ⟨-, rfl⟩ <;> exact Nat.zero_le _

def memberLength (field : String × Json) : Nat := stringLength field.1 + 1 + leastLength field.2

/-- An object's text has room for the texts of its members and what stands between them. -/
theorem obj_length {fields : List (String × Json)} (h : IsValue text (obj fields)) :
    (fields.map fun field => memberLength field + 1).sum + 1 ≤ text.length := by
  cases h with
  | token h => cases shapeOf_token h
  | noMembers => simp
  | @obj members hne hnamed hvalues =>
    have hmember : ∀ m ∈ members, memberLength m.field + 1 ≤ m.text.length + 1 := by
      intro m hm
      have hname := stringLength_le (hnamed m hm).2.1
      have hvalue := leastLength_le (hvalues m hm)
      simp only [memberLength, Member.field, Member.text, Element.text, List.length_append, List.length_cons]
      omega
    have hsum := List.sum_le_sum hmember
    have htexts : ([','].intercalate (members.map Member.text)).length + 1 =
        ((members.map Member.text).map fun text => text.length + 1).sum := length_intercalate ',' (by simpa using hne)
    simp only [List.map_map, Function.comp_def] at htexts ⊢
    simp only [List.length_cons, List.length_append, List.length_nil]
    omega

section
variable {s : String} {code : Char → List Char}

/-- Codes no longer than the shortest texts of their characters are nowhere longer than the text of the string. -/
theorem length_flatMap_le (hcode : ∀ c, (code c).length ≤ charLength c) :
    (s.toList.flatMap code).length + 2 ≤ stringLength s := by
  have hsum := List.sum_le_sum fun c (_ : c ∈ s.toList) => hcode c
  rw [stringLength, List.length_flatMap]
  omega

/-- Where they are as long, each is as long as a shortest text. -/
theorem charLength_le_of_stringLength_le (hcode : ∀ c, (code c).length ≤ charLength c)
    (h : stringLength s ≤ (s.toList.flatMap code).length + 2) : ∀ c ∈ s.toList, charLength c ≤ (code c).length := by
  intro c hc
  by_contra hlt
  have hsum := List.sum_lt_sum _ _ (fun d (_ : d ∈ s.toList) => hcode d) ⟨c, hc, Nat.lt_of_not_le hlt⟩
  rw [stringLength, List.length_flatMap] at h
  omega

end

end Fusions.Hetuflow.Json
