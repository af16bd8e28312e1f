import Fusions.Library.CharIndices
import Fusions.Library.Trim

/-! The segments of a text that is too long for one request. -/
namespace Fusions.Ai.DashScope
open Fusions.Library

def sentenceEnd (c : Char) : Bool := ['。', '！', '？', '；', '!', '?', ';', '\n'].contains c

def isComma (c : Char) : Bool := ['，', '、', ','].contains c

/-- The cut in a window. Of an empty one there is none: `max_chars - 1` overflows. -/
def cutOf (window : List (Nat × Char)) (maxChars : Nat) : Option Nat :=
  match rposition (sentenceEnd ∘ Prod.snd) window with
  | some cut => some cut
  | none =>
    match rposition (isComma ∘ Prod.snd) window with
    | some cut => some cut
    | none => if maxChars = 0 then none else some (maxChars - 1)

/-- The loop from a character on. -/
def segmentsFrom (text : List Char) (indexed : List (Nat × Char)) (maxChars startChar : Nat) :
    Option (List (List Char)) :=
  if h : startChar < indexed.length then
    let startByte := indexed[startChar].1
    let remaining := indexed.length - startChar
    if remaining ≤ maxChars then do
      let segment ← dropBytes text startByte
      return [segment]
    else do
      let window := (indexed.drop startChar).take maxChars
      let cut ← cutOf window maxChars
      let endChar := startChar + cut + 1
      let endByte := (indexed[endChar]?.map Prod.fst).getD (byteLength text)
      let segment ← slice text startByte endByte
      let segments ← segmentsFrom text indexed maxChars endChar
      return segment :: segments
  else some []
  termination_by indexed.length - startChar

/-- `None` where the source panics. -/
def splitTextSegments (text : List Char) (maxChars : Nat) : Option (List (List Char)) :=
  let indexed := charIndices 0 text
  if indexed.length ≤ maxChars then some [text]
  else do
    let segments ← segmentsFrom text indexed maxChars 0
    let segments := segments.filter fun s => trim (String.ofList s) ≠ ""
    return if segments.isEmpty then [text] else segments

/-- Where a text that is too long is cut. -/
inductive CutAfter (maxChars : Nat) (text piece : List Char) : Prop where
  | sentence (h : EndsAtLast sentenceEnd (text.take maxChars) piece)
  | comma (hsentence : ∀ c ∈ text.take maxChars, sentenceEnd c = false)
      (h : EndsAtLast isComma (text.take maxChars) piece)
  | hard (hsentence : ∀ c ∈ text.take maxChars, sentenceEnd c = false)
      (hcomma : ∀ c ∈ text.take maxChars, isComma c = false) (hlength : piece.length = maxChars)

/-- A text in pieces: all but the last are cut as they should be. -/
inductive InPieces (maxChars : Nat) : (text : List Char) → (pieces : List (List Char)) → Prop where
  | last {text : List Char} (hlength : text.length ≤ maxChars) : InPieces maxChars text [text]
  | cut {piece rest : List Char} {pieces : List (List Char)} (hlong : maxChars < (piece ++ rest).length)
      (hcut : CutAfter maxChars (piece ++ rest) piece) (hrest : InPieces maxChars rest pieces) :
      InPieces maxChars (piece ++ rest) (piece :: pieces)

/-- The segments are the pieces without some that are blank. -/
inductive BlanksDropped : (pieces segments : List (List Char)) → Prop where
  | nil : BlanksDropped [] []
  | keep {piece : List Char} {pieces segments : List (List Char)} (h : BlanksDropped pieces segments) :
      BlanksDropped (piece :: pieces) (piece :: segments)
  | drop {piece : List Char} {pieces segments : List (List Char)} (hblank : ∀ c ∈ piece, isWhitespace c = true)
      (h : BlanksDropped pieces segments) : BlanksDropped (piece :: pieces) segments

/-- The text is split within the limit, and nothing but blanks is lost. -/
structure Segmented (text : List Char) (maxChars : Nat) (pieces segments : List (List Char)) : Prop where
  split_eq : splitTextSegments text maxChars = some segments
  inPieces : InPieces maxChars text pieces
  dropped : BlanksDropped pieces segments
  limit : ∀ segment ∈ segments, segment.length ≤ maxChars

/-! Cuts. -/

theorem rposition_charIndices (p : Char → Bool) (byte : Nat) (s : List Char) (n : Nat) :
    rposition (p ∘ Prod.snd) ((charIndices byte s).take n) = rposition p (s.take n) := by
  rw [← rposition_map, List.map_take, map_snd_charIndices]

theorem cutOf_spec {maxChars : Nat} (hmax : 1 ≤ maxChars) (byte : Nat) {text : List Char}
    (hlong : maxChars < text.length) : ∃ cut piece rest, text = piece ++ rest ∧ piece.length = cut + 1 ∧
      cutOf ((charIndices byte text).take maxChars) maxChars = some cut ∧ CutAfter maxChars text piece := by
  rw [cutOf, rposition_charIndices, rposition_charIndices]
  rcases rposition_cases sentenceEnd (text.take maxChars) with ⟨hnone, hsentence⟩ | ⟨cut, piece, hsome, hlength, hp, h⟩
  · rw [hnone]
    rcases rposition_cases isComma (text.take maxChars) with ⟨hnone, hcomma⟩ | ⟨cut, piece, hsome, hlength, hp, h⟩
    · have hpiece : (text.take maxChars).length = maxChars := List.length_take_of_le (Nat.le_of_lt hlong)
      rw [hnone]
      refine ⟨maxChars - 1, text.take maxChars, text.drop maxChars, (List.take_append_drop ..).symm, by omega,
        if_neg (by omega), .hard hsentence hcomma hpiece⟩
    · obtain ⟨rest, hrest⟩ := hp.trans (List.take_prefix ..)
      exact ⟨cut, piece, rest, hrest.symm, hlength, by rw [hsome], .comma hsentence h⟩
  · obtain ⟨rest, hrest⟩ := hp.trans (List.take_prefix ..)
    exact ⟨cut, piece, rest, hrest.symm, hlength, by rw [hsome], .sentence h⟩

theorem CutAfter.length_le {maxChars : Nat} {text piece : List Char} (h : CutAfter maxChars text piece) :
    piece.length ≤ maxChars := by
  cases h with
  | sentence h => exact h.length_le.trans (List.length_take_le ..)
  | comma _ h => exact h.length_le.trans (List.length_take_le ..)
  | hard _ _ hlength => exact Nat.le_of_eq hlength

theorem InPieces.length_le {maxChars : Nat} {text : List Char} {pieces : List (List Char)}
    (h : InPieces maxChars text pieces) : ∀ piece ∈ pieces, piece.length ≤ maxChars := by
  induction h with
  | last hlength =>
    intro piece hpiece
    rwa [List.mem_singleton.1 hpiece]
  | cut hlong hcut _ ih => exact List.forall_mem_cons.2 ⟨hcut.length_le, ih⟩

theorem InPieces.flatten {maxChars : Nat} {text : List Char} {pieces : List (List Char)}
    (h : InPieces maxChars text pieces) : pieces.flatten = text := by
  induction h with
  | last hlength => exact List.flatten_singleton
  | cut _ _ _ ih => rw [List.flatten_cons, ih]

/-! The loop. -/

/-- From a character on that is there, the text behind it is cut in pieces. -/
theorem segmentsFrom_spec {maxChars : Nat} (hmax : 1 ≤ maxChars) (front : List Char) {rest : List Char}
    (hrest : rest ≠ []) : ∃ pieces, InPieces maxChars rest pieces ∧
      segmentsFrom (front ++ rest) (charIndices 0 (front ++ rest)) maxChars front.length = some pieces := by
  induction hn : rest.length using Nat.strongRecOn generalizing front rest with
  | ind n ih =>
    have hpos := List.length_pos_iff.2 hrest
    have hlt : front.length < (charIndices 0 (front ++ rest)).length := by
      rw [length_charIndices, List.length_append]
      omega
    have hbyte : (charIndices 0 (front ++ rest))[front.length].1 = byteLength front := by
      obtain ⟨c, tail, rfl⟩ := List.exists_cons_of_ne_nil hrest
      have hget := charIndices_get? front (c :: tail)
      rw [List.getElem?_eq_getElem hlt] at hget
      exact Option.some.inj hget
    rw [segmentsFrom, dif_pos hlt, hbyte, length_charIndices, List.length_append, Nat.add_sub_cancel_left,
      drop_charIndices]
    by_cases hshort : rest.length ≤ maxChars
    · rw [if_pos hshort, dropBytes_byteLength]
      exact ⟨[rest], .last hshort, rfl⟩
    · obtain ⟨cut, piece, tail, rfl, hlength, hcut, hafter⟩ :=
        cutOf_spec hmax (byteLength front) (Nat.lt_of_not_le hshort)
      have htail : tail ≠ [] := by
        rintro rfl
        rw [List.append_nil] at hshort
        exact hshort hafter.length_le
      have hend : front.length + cut + 1 = (front ++ piece).length := by
        rw [List.length_append]
        omega
      obtain ⟨pieces, hpieces, hloop⟩ := ih tail.length (by rw [← hn, List.length_append]; omega) (front ++ piece)
        htail rfl
      have hget := charIndices_get? (front ++ piece) tail
      obtain ⟨c, _, rfl⟩ := List.exists_cons_of_ne_nil htail
      rw [if_neg hshort]
      dsimp only
      rw [List.append_assoc] at hget hloop
      rw [hcut, Option.bind_eq_bind, Option.bind_some, hend, hget, hloop, List.head?_cons, Option.map_some,
        Option.getD_some, ← List.append_assoc, slice_byteLength]
      exact ⟨piece :: pieces, .cut (Nat.lt_of_not_le hshort) hafter hpieces, rfl⟩

theorem splitTextSegments_short {text : List Char} {maxChars : Nat} (h : text.length ≤ maxChars) :
    splitTextSegments text maxChars = some [text] := by
  rw [splitTextSegments, length_charIndices]
  exact if_pos h

theorem splitTextSegments_long {text : List Char} {maxChars : Nat} (hmax : 1 ≤ maxChars)
    (hlong : maxChars < text.length) : ∃ pieces, InPieces maxChars text pieces ∧
      splitTextSegments text maxChars =
        let segments := pieces.filter fun s => trim (String.ofList s) ≠ ""
        some (if segments.isEmpty then [text] else segments) := by
  have hne : text ≠ [] := List.length_pos_iff.1 (Nat.lt_of_le_of_lt (Nat.zero_le _) hlong)
  obtain ⟨pieces, hpieces, hloop⟩ := segmentsFrom_spec hmax [] hne
  refine ⟨pieces, hpieces, ?_⟩
  rw [List.nil_append] at hloop
  rw [splitTextSegments, length_charIndices, if_neg (Nat.not_le.2 hlong)]
  exact congrArg (Option.bind · _) hloop

theorem blanksDropped_filter (pieces : List (List Char)) :
    BlanksDropped pieces (pieces.filter fun s => trim (String.ofList s) ≠ "") := by
  induction pieces with
  | nil => exact .nil
  | cons piece pieces ih =>
    by_cases hblank : trim (String.ofList piece) = ""
    · rw [List.filter_cons_of_neg (by simpa using hblank)]
      exact .drop (trim_eq_empty.1 hblank) ih
    · rw [List.filter_cons_of_pos (by simpa using hblank)]
      exact .keep ih

theorem BlanksDropped.mem {pieces segments : List (List Char)} (h : BlanksDropped pieces segments) :
    ∀ segment ∈ segments, segment ∈ pieces := by
  induction h with
  | nil => exact nofun
  | keep _ ih =>
    intro segment hsegment
    rcases List.mem_cons.1 hsegment with rfl | hrest
    · exact List.mem_cons_self ..
    · exact List.mem_cons_of_mem _ (ih segment hrest)
  | drop _ _ ih => exact fun segment hsegment => List.mem_cons_of_mem _ (ih segment hsegment)

/-- Pieces of which none is kept are those of a blank text. -/
theorem filter_isEmpty_iff {text : List Char} {maxChars : Nat} {pieces : List (List Char)}
    (h : InPieces maxChars text pieces) : (pieces.filter fun s => trim (String.ofList s) ≠ "").isEmpty = true ↔
      ∀ c ∈ text, isWhitespace c = true := by
  rw [List.isEmpty_iff, List.filter_eq_nil_iff, ← h.flatten]
  constructor
  · intro hall c hc
    obtain ⟨piece, hpiece, hc⟩ := List.mem_flatten.1 hc
    exact trim_eq_empty.1 (by simpa using hall piece hpiece) c hc
  · intro hall piece hpiece
    have hblank := trim_eq_empty.2 fun c hc => hall c (List.mem_flatten.2 ⟨piece, hpiece, hc⟩)
    simpa using hblank

/-- The limit is kept but for blank texts that are too long: these come back whole. -/
theorem segmented_iff (text : List Char) {maxChars : Nat} (hmax : 1 ≤ maxChars) :
    (∃ pieces segments, Segmented text maxChars pieces segments) ↔
      text.length ≤ maxChars ∨ ∃ c ∈ text, isWhitespace c = false := by
  by_cases hshort : text.length ≤ maxChars
  · refine iff_of_true ⟨[text], [text], splitTextSegments_short hshort, .last hshort, .keep .nil, ?_⟩ (.inl hshort)
    exact (InPieces.last hshort).length_le
  · obtain ⟨pieces, hpieces, hsplit⟩ := splitTextSegments_long hmax (Nat.lt_of_not_le hshort)
    dsimp only at hsplit
    by_cases hblank : ∀ c ∈ text, isWhitespace c = true
    · rw [if_pos ((filter_isEmpty_iff hpieces).2 hblank)] at hsplit
      refine iff_of_false ?_ ?_
      · rintro ⟨_, segments, h⟩
        obtain rfl := Option.some.inj (hsplit.symm.trans h.split_eq)
        exact hshort (h.limit text (List.mem_singleton_self _))
      · rintro (h | ⟨c, hc, hspace⟩)
        · exact hshort h
        · exact absurd ((hblank c hc).symm.trans hspace) Bool.noConfusion
    · rw [if_neg (mt (filter_isEmpty_iff hpieces).1 hblank)] at hsplit
      have hdropped := blanksDropped_filter pieces
      refine iff_of_true ⟨pieces, _, hsplit, hpieces, hdropped, ?_⟩ (.inr ?_)
      · exact fun segment hsegment => hpieces.length_le segment (hdropped.mem segment hsegment)
      · simpa using hblank

theorem segmented_sentence : (∃ pieces segments, Segmented ['a', '。', 'b'] 2 pieces segments) ↔
    ['a', '。', 'b'].length ≤ 2 ∨ ∃ c ∈ ['a', '。', 'b'], isWhitespace c = false :=
  segmented_iff ['a', '。', 'b'] (by decide)

/-- Two blanks are one segment where one character is the limit. -/
theorem blanks_exceed_limit : ∃ (text : List Char) (maxChars : Nat), 1 ≤ maxChars ∧
    splitTextSegments text maxChars = some [text] ∧ maxChars < text.length ∧
    ¬∃ pieces segments, Segmented text maxChars pieces segments := by
  have hsplit : splitTextSegments [' ', ' '] 1 = some [[' ', ' ']] := by decide +kernel
  refine ⟨[' ', ' '], 1, by decide, hsplit, by decide, ?_⟩
  rintro ⟨_, segments, h⟩
  obtain rfl := Option.some.inj (hsplit.symm.trans h.split_eq)
  exact absurd (h.limit [' ', ' '] (List.mem_singleton_self _)) (by decide)

end Fusions.Ai.DashScope
