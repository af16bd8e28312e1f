import Fusions.Library.Percent
import Fusions.Library.Utf8
import Fusions.Storage.Presign

/-! The bytes that the hexadecimal and the percent encoding write. -/
namespace Fusions.Storage
open Fusions.Library

/-- The bytes that `NON_ALPHANUMERIC` leaves as they are. -/
def isAlphanumeric (byte : UInt8) : Bool := byte < 128 && (Char.ofNat byte.toNat).isAlphanum

theorem lowerDigit {n : Nat} (h : n < 16) : (hexDigit "0123456789abcdef" n).toNat < 128 ∧
    hexValue (hexDigit "0123456789abcdef" n).toUInt8 = some (UInt8.ofNat n) := by
  revert n
  decide

theorem upperDigit {n : Nat} (h : n < 16) : (hexDigit "0123456789ABCDEF" n).toNat < 128 ∧
    (hexDigit "0123456789ABCDEF" n).toUInt8 = hexUpper (UInt8.ofNat n) := by
  revert n
  decide

theorem hexEncode_bytes {digits : String} (hdigits : ∀ n, n < 16 → (hexDigit digits n).toNat < 128) (byte : UInt8) :
    (hexEncode digits byte).toUTF8.toList =
      [(hexDigit digits (byte.toNat / 16)).toUInt8, (hexDigit digits (byte.toNat % 16)).toUInt8] := by
  have hhigh : byte.toNat / 16 < 16 := by
    have := byte.toNat_lt
    omega
  have hlow : byte.toNat % 16 < 16 := Nat.mod_lt _ (by decide)
  rw [hexEncode, utf8_ascii, String.toList_ofList]
  · rfl
  · simp [hdigits _ hhigh, hdigits _ hlow]

theorem ofNat_high (byte : UInt8) : UInt8.ofNat (byte.toNat / 16) = byte / 16 := by
  rw [UInt8.ofNat_div byte.toNat_lt (by decide), UInt8.ofNat_toNat]
  rfl

theorem ofNat_low (byte : UInt8) : UInt8.ofNat (byte.toNat % 16) = byte % 16 := by
  rw [UInt8.ofNat_mod byte.toNat_lt (by decide), UInt8.ofNat_toNat]
  rfl

theorem percentTriplet_bytes (byte : UInt8) :
    ("%" ++ hexEncode "0123456789ABCDEF" byte).toUTF8.toList = percentTriplet byte := by
  have hhigh : byte.toNat / 16 < 16 := by
    have := byte.toNat_lt
    omega
  rw [utf8_append, hexEncode_bytes fun n hn => (upperDigit hn).1, (upperDigit hhigh).2,
    (upperDigit (Nat.mod_lt _ (by decide))).2, ofNat_high, ofNat_low, utf8_ascii (forall_mem_of_all (by decide))]
  rfl

theorem percentEncode_bytes (s : String) :
    (percentEncode s).toUTF8.toList = Library.percentEncode isAlphanumeric s.toUTF8.toList := by
  rw [percentEncode, utf8_join, List.flatMap_map, Library.percentEncode]
  refine List.flatMap_congr fun byte _ => ?_
  change (if isAlphanumeric byte = true then String.singleton (Char.ofNat byte.toNat)
    else "%" ++ hexEncode "0123456789ABCDEF" byte).toUTF8.toList = _
  by_cases hkeep : isAlphanumeric byte = true
  · have hlow : ∀ b ∈ [byte], b < 128 := by
      simp only [isAlphanumeric, Bool.and_eq_true, decide_eq_true_eq] at hkeep
      simpa using hkeep.1
    rw [if_pos hkeep, if_pos hkeep]
    exact utf8_ofList_bytes hlow
  · rw [if_neg hkeep, if_neg hkeep]
    exact percentTriplet_bytes byte

end Fusions.Storage
