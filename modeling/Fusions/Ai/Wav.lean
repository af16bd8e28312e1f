import Mathlib.Algebra.Group.Nat.Defs

/-! RIFF/WAV headers of 44 bytes, and their sizes written back. -/
namespace Fusions.Ai

/-- `u16::to_le_bytes`. -/
def le16 (n : UInt16) : List UInt8 := [n.toUInt8, (n >>> 8).toUInt8]

/-- `u32::to_le_bytes`. -/
def le32 (n : UInt32) : List UInt8 := [n.toUInt8, (n >>> 8).toUInt8, (n >>> 16).toUInt8, (n >>> 24).toUInt8]

/-- `u32::saturating_add`. -/
def saturatingAdd (a b : UInt32) : UInt32 := if a.toNat + b.toNat < 2 ^ 32 then a + b else 0xFFFFFFFF

/-- `b"RIFF"`, `b"WAVE"`, `b"fmt "` and `b"data"`. -/
def riffTag : List UInt8 := [82, 73, 70, 70]

def waveTag : List UInt8 := [87, 65, 86, 69]

def fmtTag : List UInt8 := [102, 109, 116, 32]

def dataTag : List UInt8 := [100, 97, 116, 97]

/-- The header of PCM data. A length that is not known is written as 0xFFFFFFFF. -/
def pcmWavHeader (sampleRate : UInt32) (channels bitsPerSample : UInt16) (dataLen : Option Nat) : List UInt8 :=
  let dataLen := (dataLen.map UInt32.ofNat).getD 0xFFFFFFFF
  let byteRate := sampleRate * channels.toUInt32 * (bitsPerSample / 8).toUInt32
  let blockAlign := channels * (bitsPerSample / 8)
  riffTag ++ le32 (saturatingAdd 36 dataLen) ++ waveTag ++ fmtTag ++ le32 16 ++ le16 1 ++ le16 channels ++
    le32 sampleRate ++ le32 byteRate ++ le16 blockAlign ++ le16 bitsPerSample ++ dataTag ++ le32 dataLen

/-- `copy_from_slice` into the bytes from `start` on. -/
def copyFromSlice (audio : List UInt8) (start : Nat) (bytes : List UInt8) : List UInt8 :=
  audio.take start ++ bytes ++ audio.drop (start + bytes.length)

/-- A header but for its two sizes: the fields of its `fmt ` part. -/
structure WavHeader where
  fields : List UInt8
  length_fields : fields.length = 20

def WavHeader.bytes (header : WavHeader) (riffSize dataSize : UInt32) : List UInt8 :=
  riffTag ++ le32 riffSize ++ (waveTag ++ fmtTag ++ header.fields ++ dataTag) ++ le32 dataSize

def HasHeader (audio : List UInt8) : Prop :=
  ∃ (header : WavHeader) (riffSize dataSize : UInt32) (pcm : List UInt8), audio = header.bytes riffSize dataSize ++ pcm

@[simp] theorem length_le16 (n : UInt16) : (le16 n).length = 2 := rfl

@[simp] theorem length_le32 (n : UInt32) : (le32 n).length = 4 := rfl

theorem WavHeader.length_bytes (header : WavHeader) (riffSize dataSize : UInt32) :
    (header.bytes riffSize dataSize).length = 44 := by
  simp [bytes, riffTag, waveTag, fmtTag, dataTag, header.length_fields]

/-- The header that is written is one. -/
theorem pcmWavHeader_eq (sampleRate : UInt32) (channels bitsPerSample : UInt16) (dataLen : Option Nat) :
    ∃ header : WavHeader, pcmWavHeader sampleRate channels bitsPerSample dataLen =
      header.bytes (saturatingAdd 36 ((dataLen.map UInt32.ofNat).getD 0xFFFFFFFF))
        ((dataLen.map UInt32.ofNat).getD 0xFFFFFFFF) := by
  refine ⟨⟨le32 16 ++ le16 1 ++ le16 channels ++ le32 sampleRate ++
    le32 (sampleRate * channels.toUInt32 * (bitsPerSample / 8).toUInt32) ++ le16 (channels * (bitsPerSample / 8)) ++
    le16 bitsPerSample, rfl⟩, ?_⟩
  simp only [pcmWavHeader, WavHeader.bytes, List.append_assoc]

theorem copyFromSlice_append {start : Nat} (front : List UInt8) {old new : List UInt8} (rest : List UInt8)
    (hstart : front.length = start) (h : old.length = new.length) :
    copyFromSlice (front ++ (old ++ rest)) start new = front ++ (new ++ rest) := by
  subst hstart
  have hlength : front.length + new.length = (front ++ old).length := by rw [List.length_append, h]
  rw [copyFromSlice, hlength, ← List.append_assoc, List.drop_left, List.append_assoc front old, List.take_left,
    List.append_assoc]

theorem length_copyFromSlice {audio bytes : List UInt8} {start : Nat} (h : start + bytes.length ≤ audio.length) :
    (copyFromSlice audio start bytes).length = audio.length := by
  simp only [copyFromSlice, List.length_append, List.length_take, List.length_drop]
  omega

/-- The sizes of a header are written back in their places. -/
theorem WavHeader.copy_sizes (header : WavHeader) (riffSize dataSize riffSize' dataSize' : UInt32) (pcm : List UInt8) :
    copyFromSlice (copyFromSlice (header.bytes riffSize dataSize ++ pcm) 4 (le32 riffSize')) 40 (le32 dataSize') =
      header.bytes riffSize' dataSize' ++ pcm := by
  have hlength : (riffTag ++ le32 riffSize' ++ (waveTag ++ fmtTag ++ header.fields ++ dataTag)).length = 40 := by
    simp [riffTag, waveTag, fmtTag, dataTag, header.length_fields]
  have hriff : copyFromSlice (header.bytes riffSize dataSize ++ pcm) 4 (le32 riffSize') =
      header.bytes riffSize' dataSize ++ pcm := by
    have hcopy := copyFromSlice_append riffTag ((waveTag ++ fmtTag ++ header.fields ++ dataTag) ++ le32 dataSize ++ pcm)
      (show riffTag.length = 4 from rfl) (show (le32 riffSize).length = (le32 riffSize').length from rfl)
    simpa only [bytes, List.append_assoc] using hcopy
  rw [hriff, bytes, bytes, List.append_assoc, List.append_assoc _ (le32 dataSize') pcm]
  exact copyFromSlice_append _ pcm hlength rfl

/-- A length below 2^32 is written as it is, and so is its sum with 36. -/
theorem toNat_sizes {n : Nat} (h : n + 36 < 2 ^ 32) :
    (UInt32.ofNat n).toNat = n ∧ (saturatingAdd 36 (UInt32.ofNat n)).toNat = n + 36 := by
  have hn : (UInt32.ofNat n).toNat = n := by
    rw [UInt32.toNat_ofNat']
    exact Nat.mod_eq_of_lt (by omega)
  have h36 : (36 : UInt32).toNat = 36 := rfl
  refine ⟨hn, ?_⟩
  rw [saturatingAdd, hn, h36, if_pos (by omega), UInt32.toNat_add, hn, h36]
  omega

end Fusions.Ai
