import Fusions.Library.Percent
import Fusions.Library.Utf8
import Fusions.Rpc.HeaderMap

/-! Texts as the values of headers: which ones are accepted, and which ones are read back. -/
namespace Fusions.Rpc
open Fusions.Library

/-- The bytes of `to_str`. -/
def isVisible (b : UInt8) : Bool := (32 ≤ b && b < 127) || b == 9

def Visible (s : String) : Prop := ∀ b ∈ s.toUTF8.toList, isVisible b = true

/-- What can be the value of a header. -/
def Plain (s : String) : Prop := ∀ b ∈ s.toUTF8.toList, isValueByte b = true

instance (s : String) : Decidable (Visible s) := inferInstanceAs (Decidable (∀ b ∈ s.toUTF8.toList, isVisible b = true))

instance (s : String) : Decidable (Plain s) := inferInstanceAs (Decidable (∀ b ∈ s.toUTF8.toList, isValueByte b = true))

theorem visible_byte {b : UInt8} (hb : isVisible b = true) : b < 128 ∧ isValueByte b = true := by
  have hall : ∀ n : Nat, n < 256 → isVisible (UInt8.ofNat n) = true →
      UInt8.ofNat n < 128 ∧ isValueByte (UInt8.ofNat n) = true := by
    decide +kernel
  exact forall_byte (P := fun b => isVisible b = true → b < 128 ∧ isValueByte b = true) hall b hb

theorem plain_of_visible {s : String} (h : Visible s) : Plain s := fun b hb => (visible_byte (h b hb)).2

theorem parse_eq_some {s : String} {v : HeaderValue} :
    HeaderValue.parse s = some v ↔ v.bytes = s.toUTF8.toList := by
  unfold HeaderValue.parse
  constructor
  · intro h
    dsimp only at h
    split at h
    · exact congrArg HeaderValue.bytes (Option.some.inj h).symm
    · cases h
  · intro h
    obtain ⟨bytes, hvalid⟩ := v
    obtain rfl : bytes = s.toUTF8.toList := h
    exact dif_pos hvalid

theorem parse_isSome {s : String} : (HeaderValue.parse s).isSome = true ↔ Plain s := by
  rw [Option.isSome_iff_exists]
  simp only [parse_eq_some]
  exact ⟨fun ⟨v, hv⟩ => by rw [Plain, ← hv]; exact List.all_eq_true.1 v.valid,
    fun h => ⟨⟨s.toUTF8.toList, List.all_eq_true.2 h⟩, rfl⟩⟩

theorem toStr_isSome {v : HeaderValue} : v.toStr.isSome = true ↔ ∀ b ∈ v.bytes, isVisible b = true := by
  rw [HeaderValue.toStr, Option.isSome_ite]
  exact List.all_eq_true

theorem toStr_parse {s : String} {v : HeaderValue} (hv : HeaderValue.parse s = some v) (hs : Visible s) :
    v.toStr = some s := by
  rw [parse_eq_some] at hv
  have hascii : ∀ c ∈ s.toList, c.toNat < 128 := lt_of_utf8_lt fun b hb => (visible_byte (hs b hb)).1
  have hall : s.toUTF8.toList.all (fun b => (32 ≤ b && b < 127) || b == 9) = true := List.all_eq_true.2 hs
  rw [HeaderValue.toStr, hv, if_pos hall, ofList_utf8 hascii]

theorem visible_of_toStr {s : String} {v : HeaderValue} (hv : HeaderValue.parse s = some v) :
    v.toStr.isSome = true ↔ Visible s := by
  rw [toStr_isSome, parse_eq_some.1 hv]
  rfl

theorem plain_append {s t : String} : Plain (s ++ t) ↔ Plain s ∧ Plain t := by
  rw [Plain, utf8_append, List.forall_mem_append]
  rfl

theorem plain_of_chars {s : String} (h : ∀ c ∈ s.toList, c.toNat < 128 ∧ isValueByte c.toUInt8 = true) : Plain s := by
  rw [Plain, utf8_ascii fun c hc => (h c hc).1, List.forall_mem_map]
  exact fun c hc => (h c hc).2

theorem lower_name (name : HeaderName) : name.name.map Char.toLower = name.name := by
  have hvalid := name.valid
  simp only [isHeaderName, Bool.and_eq_true, List.all_eq_true] at hvalid
  have hsame : ∀ c ∈ name.name.toList, c.toLower = c := by
    intro c hc
    have hupper : c.isUpper = false := (Bool.not_eq_true' _).mp (hvalid.2 c hc).2
    have hno : ¬ (c.val ≥ 'A'.val ∧ c.val ≤ 'Z'.val) := of_decide_eq_false hupper
    exact dif_neg hno
  rw [← String.toList_inj, String.toList_map]
  conv_rhs => rw [← List.map_id name.name.toList]
  exact List.map_congr_left hsame

theorem name_char {c : Char} (h : isNameChar c = true) : c.toNat < 128 ∧ isValueByte c.toUInt8 = true := by
  have hascii : c.toNat < 128 := by
    rcases Bool.or_eq_true_iff.1 h with halphanum | h
    · rcases Bool.or_eq_true_iff.1 halphanum with halpha | hdigit
      · rcases Bool.or_eq_true_iff.1 halpha with hupper | hlower
        · have hle : c.val ≤ 90 := (of_decide_eq_true hupper : c.val ≥ 65 ∧ c.val ≤ 90).2
          exact Nat.lt_of_le_of_lt (UInt32.le_iff_toNat_le.1 hle) (by decide)
        · have hle : c.val ≤ 122 := of_decide_eq_true (Bool.and_eq_true_iff.1 hlower).2
          exact Nat.lt_of_le_of_lt (UInt32.le_iff_toNat_le.1 hle) (by decide)
      · exact Nat.lt_of_le_of_lt (Char.isDigit_iff_toNat.1 hdigit).2 (by decide)
    · rw [List.contains_iff_mem] at h
      have hsigns : ∀ c ∈ "!#$%&'*+-.^_`|~".toList, c.toNat < 128 := forall_mem_of_all (by decide)
      exact hsigns c h
  have hall : ∀ n : Nat, n < 128 → isNameChar (Char.ofNat n) = true → isValueByte (Char.ofNat n).toUInt8 = true := by
    decide +kernel
  exact ⟨hascii, forall_ascii (P := fun c => isNameChar c = true → isValueByte c.toUInt8 = true) hall hascii h⟩

/-- A text is the value of a header from which it is read again. -/
def ReadsBack (s : String) : Prop := ∃ v, HeaderValue.parse s = some v ∧ v.toStr = some s

theorem readsBack_iff {s : String} : ReadsBack s ↔ Visible s := by
  constructor
  · rintro ⟨v, hv, hs⟩
    exact (visible_of_toStr hv).1 (Option.isSome_of_eq_some hs)
  · intro h
    obtain ⟨v, hv⟩ := Option.isSome_iff_exists.1 (parse_isSome.2 (plain_of_visible h))
    exact ⟨v, hv, toStr_parse hv h⟩

end Fusions.Rpc
