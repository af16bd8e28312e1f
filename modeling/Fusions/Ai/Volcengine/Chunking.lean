import Fusions.Ai.Volcengine.Speech
import Fusions.Library.Pieces

/-! The audio stream from the lines of the response, and what the cuts between its chunks change. -/
namespace Fusions.Ai.Volcengine
open Fusions.Hetuflow Fusions.Library
open Fusions.Library.LossyUtf8 (fromUtf8Lossy)

/-- The line that ends the stream. -/
inductive Stop where
  | ended
  | failed (error : SpeechError)
  deriving DecidableEq, Repr

/-- The lines of a body: what its newlines end, and what is behind them unless the body was cut off. -/
def linesOf {α : Type} [DecidableEq α] (newline : α) (midway : Option String) (body : List α) : List (List α) :=
  match midway with
  | some _ => (body.splitOn newline).dropLast
  | none => body.splitOn newline

/-- The error that ends the stream. -/
def endOf (midway : Option String) : Option Stop → Option SpeechError
  | some .ended => none
  | some (.failed error) => some error
  | none => midway.map .streamMidway

/-- The stream of these data: after an error the last of them is not yielded. -/
def streamOf (audio : List (List UInt8)) (error : Option SpeechError) : AudioStream :=
  let last := if error.isSome then [] else audio.getLast?.toList
  ⟨audio.dropLast.map (AudioPart.mk · false) ++ last.map (AudioPart.mk · true), error⟩

section
variable (fromStr : String → Option Json) (decodeBase64 : String → Option (List UInt8))

/-- The data of the lines before the first end or error line, and that line. -/
def heard : List (List Char) → List (List UInt8) × Option Stop
  | [] => ([], none)
  | line :: lines =>
    match eventOf fromStr decodeBase64 line with
    | some (.data audio) => (audio :: (heard lines).1, (heard lines).2)
    | some .done => ([], some .ended)
    | some (.error code message) => ([], some (.failed (classifyStreamCode code message)))
    | some .ignore | none => heard lines

/-- The stream of some lines, after a part that is held back. -/
def spoken (midway : Option String) (pending : Option (List UInt8)) (lines : List (List Char)) : AudioStream :=
  let told := heard fromStr decodeBase64 lines
  streamOf (pending.toList ++ told.1) (endOf midway told.2)

end

section
variable {fromStr : String → Option Json} {decodeBase64 : String → Option (List UInt8)}
  {midway : Option String} {pending : Option (List UInt8)}

theorem streamOf_pending_none : streamOf pending.toList none = finish pending := by
  cases pending <;> rfl

theorem streamOf_pending_some (error : SpeechError) : streamOf pending.toList (some error) = ⟨[], some error⟩ := by
  cases pending <;> rfl

/-- A datum that another follows is yielded. -/
theorem streamOf_cons (prev next : List UInt8) (audio : List (List UInt8)) (error : Option SpeechError) :
    streamOf (prev :: next :: audio) error = (streamOf (next :: audio) error).after [⟨prev, false⟩] := rfl

theorem spoken_nil : spoken fromStr decodeBase64 midway pending [] =
    match midway with
    | some text => ⟨[], some (.streamMidway text)⟩
    | none => finish pending := by
  simp only [spoken, heard, List.append_nil]
  cases midway with
  | none => exact streamOf_pending_none
  | some text => exact streamOf_pending_some _

/-- What the loop does with a line is what the line adds to the stream. -/
theorem spoken_cons (line : List Char) (lines : List (List Char)) :
    spoken fromStr decodeBase64 midway pending (line :: lines) =
      (onLine fromStr decodeBase64 pending line).followedBy pending fun pending =>
        spoken fromStr decodeBase64 midway pending lines := by
  rw [spoken, heard, onLine]
  cases eventOf fromStr decodeBase64 line with
  | none => rfl
  | some event =>
    cases event with
    | data audio =>
      cases pending with
      | none => rfl
      | some prev => exact streamOf_cons prev audio _ _
    | done =>
      dsimp only
      rw [List.append_nil]
      exact streamOf_pending_none
    | error code message =>
      dsimp only
      rw [List.append_nil]
      exact streamOf_pending_some _
    | ignore => rfl

theorem linesOf_cons {α : Type} [DecidableEq α] {newline : α} {line rest : List α} (h : newline ∉ line) :
    linesOf newline midway (line ++ newline :: rest) = line :: linesOf newline midway rest := by
  have hsplit : (line ++ newline :: rest).splitOn newline = line :: rest.splitOn newline :=
    List.splitOn_append_cons_self_of_not_mem h rest
  cases midway with
  | none => exact hsplit
  | some text => rw [linesOf, hsplit, List.dropLast_cons_of_ne_nil (List.splitOn_ne_nil newline rest)]; rfl

/-- Draining the buffer: if `more` says the lines that come with the rest of the body, so does the whole. -/
theorem drainLines_eq {more : Option (List UInt8) → List Char → AudioStream} {rest : List Char}
    (hmore : ∀ pending buffer, '\n' ∉ buffer →
      more pending buffer = spoken fromStr decodeBase64 midway pending (linesOf '\n' midway (buffer ++ rest)))
    (pending : Option (List UInt8)) (buffer : List Char) :
    drainLines fromStr decodeBase64 more pending buffer =
      spoken fromStr decodeBase64 midway pending (linesOf '\n' midway (buffer ++ rest)) := by
  fun_induction drainLines fromStr decodeBase64 more pending buffer with
  | case1 pending buffer htake => exact hmore pending buffer (takeLine_eq_none.1 htake)
  | case2 pending buffer line after htake ih =>
    obtain ⟨rfl, hclean⟩ := takeLine_eq_some htake
    rw [List.append_assoc, List.cons_append, linesOf_cons hclean, spoken_cons]
    exact congrArg _ (funext ih)

theorem onEnd_eq {buffer : List Char} (h : '\n' ∉ buffer) : onEnd fromStr decodeBase64 midway pending buffer =
    spoken fromStr decodeBase64 midway pending (linesOf '\n' midway buffer) := by
  have hsplit : buffer.splitOn '\n' = [buffer] := List.splitOn_eq_singleton h
  cases midway with
  | some text => rw [linesOf, hsplit, List.dropLast_singleton, spoken_nil]; rfl
  | none =>
    have hfinish : (fun pending => spoken fromStr decodeBase64 none pending []) = finish := funext fun _ => spoken_nil
    rw [linesOf, hsplit, spoken_cons, hfinish]
    rfl

/-- The chunks are heard as the lines of the text that they are read as. -/
theorem receive_eq (chunks : List (List UInt8)) (pending : Option (List UInt8)) {buffer : List Char}
    (h : '\n' ∉ buffer) : receive fromStr decodeBase64 midway chunks pending buffer =
      spoken fromStr decodeBase64 midway pending
        (linesOf '\n' midway (buffer ++ chunks.flatMap fromUtf8Lossy)) := by
  induction chunks generalizing pending buffer with
  | nil => rw [List.flatMap_nil, List.append_nil]; exact onEnd_eq h
  | cons chunk chunks ih =>
    rw [List.flatMap_cons, ← List.append_assoc]
    exact drainLines_eq (fun pending buffer hbuffer => ih pending hbuffer) pending (buffer ++ fromUtf8Lossy chunk)

/-- The lines of what a body is read as in pieces are read in pieces, each on its own. -/
theorem exists_linesOf_iff {bytes : List UInt8} {lines : List (List Char)} :
    (∃ text, ReadInPieces fromUtf8Lossy bytes text ∧ linesOf '\n' midway text = lines) ↔
      List.Forall₂ (ReadInPieces fromUtf8Lossy) (linesOf 10 midway bytes) lines := by
  have hsplit (ts : List (List Char)) :
      (∃ text, ReadInPieces fromUtf8Lossy bytes text ∧ text.splitOn '\n' = ts) ↔
        List.Forall₂ (ReadInPieces fromUtf8Lossy) (bytes.splitOn 10) ts :=
    LossyUtf8.cutAt_newline.exists_splitOn_iff
  cases midway with
  | none => exact hsplit lines
  | some cause =>
    constructor
    · rintro ⟨text, hread, rfl⟩
      have hall := (hsplit _).1 ⟨text, hread, rfl⟩
      simp only [linesOf, List.dropLast_eq_take, hall.length_eq]
      exact List.forall₂_take _ hall
    · intro h
      -- the rest of a body that is cut off may be read as it likes
      have hne := List.splitOn_ne_nil (10 : UInt8) bytes
      have hlast : ReadInPieces fromUtf8Lossy ((bytes.splitOn 10).getLast hne) _ := ReadInPieces.whole _
      have hall : List.Forall₂ _ ((bytes.splitOn 10).dropLast ++ [_]) (lines ++ [_]) :=
        List.rel_append h (List.Forall₂.cons hlast .nil)
      rw [List.dropLast_append_getLast hne] at hall
      obtain ⟨text, hread, htext⟩ := (hsplit _).2 hall
      exact ⟨text, hread, by rw [linesOf, htext, List.dropLast_concat]⟩

theorem synthesizeStream_eq {self : DoubaoSpeech} {text : String} {response : Response} {stream : AudioStream}
    (h : self.synthesizeStream fromStr decodeBase64 text (.ok response) = .ok stream) :
    stream = receive fromStr decodeBase64 response.midway response.chunks none [] := by
  obtain ⟨_ | key⟩ := self
  · exact absurd h nofun
  · by_cases htext : text = ""
    · rw [htext] at h
      exact absurd h nofun
    · simp only [DoubaoSpeech.synthesizeStream, if_neg htext] at h
      exact checkHttp_bind_ok h

end

section
variable (fromStr : String → Option Json) (decodeBase64 : String → Option (List UInt8))
  (bytes : List UInt8) (midway : Option String)

/-- A stream that `synthesize_stream` gives for a response of these bytes, however they come in chunks. -/
def Streams (stream : AudioStream) : Prop :=
  ∃ (self : DoubaoSpeech) (text : String) (response : Response),
    self.synthesizeStream fromStr decodeBase64 text (.ok response) = .ok stream ∧
      response.chunks.flatten = bytes ∧ response.midway = midway

/-- The lines of the body, each read in some pieces. -/
def ReadAs (lines : List (List Char)) : Prop :=
  List.Forall₂ (ReadInPieces fromUtf8Lossy) (linesOf 10 midway bytes) lines

/-- What the lines of the body tell when each is read as a whole. -/
def told : List (List UInt8) × Option Stop :=
  heard fromStr decodeBase64 ((linesOf 10 midway bytes).map fromUtf8Lossy)

/-- The stream does not depend on the chunks, has the data of the lines before the first end or error line, and marks
its last part exactly when an end line came after data. -/
structure Faithful : Prop where
  alike : ∀ stream stream', Streams fromStr decodeBase64 bytes midway stream →
    Streams fromStr decodeBase64 bytes midway stream' → stream = stream'
  audio : ∀ stream, Streams fromStr decodeBase64 bytes midway stream →
    stream.parts.flatMap AudioPart.bytes = (told fromStr decodeBase64 bytes midway).1.flatten
  last : ∀ stream, Streams fromStr decodeBase64 bytes midway stream → ∀ before part after,
    stream.parts = before ++ part :: after → part.isLast → after = [] ∧ stream.error = none
  complete : ∀ stream, Streams fromStr decodeBase64 bytes midway stream →
    ((∃ part ∈ stream.parts, part.isLast) ↔ (told fromStr decodeBase64 bytes midway).2 = some .ended ∧
      (told fromStr decodeBase64 bytes midway).1 ≠ [])

/-- Data comes to an end line. Lines read in pieces tell of the same error, and where there is none of the same data;
before an error they tell of one datum at most, which is never yielded. -/
structure Unmistakable : Prop where
  ended : (told fromStr decodeBase64 bytes midway).1 ≠ [] → (told fromStr decodeBase64 bytes midway).2 = some .ended
  error : ∀ lines, ReadAs bytes midway lines → endOf midway (heard fromStr decodeBase64 lines).2 =
    endOf midway (told fromStr decodeBase64 bytes midway).2
  audio : endOf midway (told fromStr decodeBase64 bytes midway).2 = none → ∀ lines, ReadAs bytes midway lines →
    (heard fromStr decodeBase64 lines).1 = (told fromStr decodeBase64 bytes midway).1
  short : endOf midway (told fromStr decodeBase64 bytes midway).2 ≠ none → ∀ lines, ReadAs bytes midway lines →
    (heard fromStr decodeBase64 lines).1.length ≤ 1

/-- The stream of the lines of the body as a whole. -/
def wholeStream : AudioStream :=
  streamOf (told fromStr decodeBase64 bytes midway).1 (endOf midway (told fromStr decodeBase64 bytes midway).2)

end

section
variable {fromStr : String → Option Json} {decodeBase64 : String → Option (List UInt8)}
  {bytes : List UInt8} {midway : Option String}

/-- A line of data has data. -/
theorem audio_ne_nil {line : List Char} {audio : List UInt8}
    (h : eventOf fromStr decodeBase64 line = some (.data audio)) : audio ≠ [] := by
  rw [eventOf] at h
  split at h
  · exact absurd h nofun
  · rw [parseStreamLine] at h
    split at h
    · exact absurd h nofun
    · extract_lets code data found at h
      split at h
      · next hne =>
        rw [← StreamEvent.data.inj (Option.some.inj h)]
        exact hne
      · split at h
        · exact absurd (Option.some.inj h) nofun
        · split at h
          · exact absurd (Option.some.inj h) nofun
          · exact absurd (Option.some.inj h) nofun

theorem heard_ne_nil {lines : List (List Char)} :
    ∀ audio ∈ (heard fromStr decodeBase64 lines).1, audio ≠ [] := by
  induction lines with
  | nil => exact nofun
  | cons line lines ih =>
    rw [heard]
    split
    · next audio hevent => exact List.forall_mem_cons.2 ⟨audio_ne_nil hevent, ih⟩
    · exact nofun
    · exact nofun
    · exact ih
    · exact ih

theorem streamOf_none_concat (audio : List (List UInt8)) (last : List UInt8) :
    streamOf (audio ++ [last]) none = ⟨audio.map (AudioPart.mk · false) ++ [⟨last, true⟩], none⟩ := by
  simp [streamOf]

theorem streamOf_none_bytes (audio : List (List UInt8)) :
    (streamOf audio none).parts.map AudioPart.bytes = audio := by
  rcases List.eq_nil_or_concat' audio with rfl | ⟨audio, last, rfl⟩
  · rfl
  · simp [streamOf_none_concat, Function.comp_def]

theorem streamOf_some (audio : List (List UInt8)) (error : SpeechError) :
    streamOf audio (some error) = ⟨audio.dropLast.map (AudioPart.mk · false), some error⟩ :=
  congrArg (AudioStream.mk · (some error)) (List.append_nil _)

theorem streamOf_some_bytes (audio : List (List UInt8)) (error : SpeechError) :
    (streamOf audio (some error)).parts.map AudioPart.bytes = audio.dropLast := by
  rw [streamOf_some, List.map_map]
  exact List.map_id' _

/-- A part that comes before the last datum is not marked. -/
theorem isLast_of_mem_map {audio : List (List UInt8)} {part : AudioPart}
    (h : part ∈ audio.map (AudioPart.mk · false)) : part.isLast = false := by
  obtain ⟨bytes, _, rfl⟩ := List.mem_map.1 h
  rfl

/-- Only the last part is marked, and no error follows it. -/
theorem streamOf_last {audio : List (List UInt8)} {error : Option SpeechError} {before after : List AudioPart}
    {part : AudioPart} (hparts : (streamOf audio error).parts = before ++ part :: after) (hlast : part.isLast) :
    after = [] ∧ error = none := by
  cases error with
  | some error =>
    have hmem : part ∈ (streamOf audio (some error)).parts := by
      rw [hparts]
      exact List.mem_append_right before List.mem_cons_self
    rw [streamOf_some] at hmem
    exact absurd hlast (Bool.eq_false_iff.1 (isLast_of_mem_map hmem))
  | none =>
    rcases List.eq_nil_or_concat' after with rfl | ⟨after, other, rfl⟩
    · exact ⟨rfl, rfl⟩
    · rcases List.eq_nil_or_concat' audio with rfl | ⟨audio, last, rfl⟩
      · exact absurd hparts (by simp [streamOf])
      · rw [streamOf_none_concat, ← List.cons_append, ← List.append_assoc] at hparts
        have hmem : part ∈ audio.map (AudioPart.mk · false) := by
          rw [(List.append_inj' hparts rfl).1]
          exact List.mem_append_right before List.mem_cons_self
        exact absurd hlast (Bool.eq_false_iff.1 (isLast_of_mem_map hmem))

theorem streamOf_complete {audio : List (List UInt8)} {error : Option SpeechError} :
    (∃ part ∈ (streamOf audio error).parts, part.isLast) ↔ error = none ∧ audio ≠ [] := by
  cases error with
  | some error =>
    rw [streamOf_some]
    refine iff_of_false ?_ nofun
    rintro ⟨part, hmem, hlast⟩
    exact absurd hlast (Bool.eq_false_iff.1 (isLast_of_mem_map hmem))
  | none =>
    rcases List.eq_nil_or_concat' audio with rfl | ⟨audio, last, rfl⟩
    · exact iff_of_false nofun fun h => h.2 rfl
    · rw [streamOf_none_concat]
      exact iff_of_true ⟨⟨last, true⟩, List.mem_append_right _ (List.mem_singleton_self _), rfl⟩
        ⟨rfl, List.append_ne_nil_of_right_ne_nil audio (List.cons_ne_nil last [])⟩

/-- The streams of a body are those of its lines, each read in any pieces. -/
theorem streams_iff {stream : AudioStream} : Streams fromStr decodeBase64 bytes midway stream ↔
    ∃ lines, ReadAs bytes midway lines ∧ stream =
      streamOf (heard fromStr decodeBase64 lines).1 (endOf midway (heard fromStr decodeBase64 lines).2) := by
  constructor
  · rintro ⟨self, text, response, hcall, rfl, rfl⟩
    refine ⟨_, exists_linesOf_iff.1 ⟨_, ⟨response.chunks, rfl, rfl⟩, rfl⟩, ?_⟩
    rw [synthesizeStream_eq hcall, receive_eq response.chunks none List.not_mem_nil]
    rfl
  · rintro ⟨lines, hlines, rfl⟩
    obtain ⟨_, ⟨chunks, rfl, rfl⟩, rfl⟩ := exists_linesOf_iff.2 hlines
    refine ⟨⟨some ""⟩, "text", ⟨200, none, chunks, midway⟩, ?_, rfl, rfl⟩
    exact congrArg Except.ok (receive_eq chunks none List.not_mem_nil)

theorem streams_wholeStream :
    Streams fromStr decodeBase64 bytes midway (wholeStream fromStr decodeBase64 bytes midway) := by
  refine streams_iff.2 ⟨_, ?_, rfl⟩
  rw [ReadAs, List.forall₂_map_right_iff, List.forall₂_same]
  exact fun line _ => ReadInPieces.whole line

namespace Faithful
variable (h : Faithful fromStr decodeBase64 bytes midway)
include h

/-- A body whose data ends in an error loses data. -/
theorem error_eq_none (hne : (told fromStr decodeBase64 bytes midway).1 ≠ []) :
    endOf midway (told fromStr decodeBase64 bytes midway).2 = none := by
  have haudio := h.audio _ streams_wholeStream
  cases herror : endOf midway (told fromStr decodeBase64 bytes midway).2 with
  | none => rfl
  | some error =>
    have hlast := heard_ne_nil _ (List.getLast_mem hne)
    rw [wholeStream, herror, List.flatMap, streamOf_some_bytes] at haudio
    conv at haudio => rhs; rw [← List.dropLast_append_getLast hne]
    rw [List.flatten_append, List.flatten_singleton] at haudio
    exact absurd (List.self_eq_append_right.1 haudio) hlast

theorem ended (hne : (told fromStr decodeBase64 bytes midway).1 ≠ []) :
    (told fromStr decodeBase64 bytes midway).2 = some .ended :=
  ((h.complete _ streams_wholeStream).1 (streamOf_complete.2 ⟨h.error_eq_none hne, hne⟩)).1

theorem streamOf_heard {lines : List (List Char)} (hlines : ReadAs bytes midway lines) :
    streamOf (heard fromStr decodeBase64 lines).1 (endOf midway (heard fromStr decodeBase64 lines).2) =
      wholeStream fromStr decodeBase64 bytes midway :=
  h.alike _ _ (streams_iff.2 ⟨lines, hlines, rfl⟩) streams_wholeStream

theorem unmistakable : Unmistakable fromStr decodeBase64 bytes midway := by
  have herror (lines : List (List Char)) (hlines : ReadAs bytes midway lines) :
      endOf midway (heard fromStr decodeBase64 lines).2 = endOf midway (told fromStr decodeBase64 bytes midway).2 :=
    congrArg AudioStream.error (h.streamOf_heard hlines)
  have hbytes (lines : List (List Char)) (hlines : ReadAs bytes midway lines) :=
    congrArg (fun stream => stream.parts.map AudioPart.bytes) (h.streamOf_heard hlines)
  refine ⟨fun hne => h.ended hne, herror, fun hnone lines hlines => ?_, fun hsome lines hlines => ?_⟩
  · have hparts := hbytes lines hlines
    rwa [wholeStream, herror lines hlines, hnone, streamOf_none_bytes, streamOf_none_bytes] at hparts
  · have hempty : (told fromStr decodeBase64 bytes midway).1 = [] := by
      by_contra hne
      exact hsome (h.error_eq_none hne)
    obtain ⟨error, hcause⟩ := Option.ne_none_iff_exists'.1 hsome
    have hparts := hbytes lines hlines
    rw [wholeStream, herror lines hlines, hcause, hempty, streamOf_some_bytes, streamOf_some_bytes] at hparts
    have hlength := congrArg List.length hparts
    rw [List.length_dropLast, List.dropLast_nil, List.length_nil] at hlength
    omega

end Faithful

namespace Unmistakable
variable (h : Unmistakable fromStr decodeBase64 bytes midway)
include h

/-- Before an error no data comes. -/
theorem empty (hsome : endOf midway (told fromStr decodeBase64 bytes midway).2 ≠ none) :
    (told fromStr decodeBase64 bytes midway).1 = [] := by
  by_contra hne
  exact hsome (by rw [h.ended hne]; rfl)

theorem eq_wholeStream {stream : AudioStream} (hstream : Streams fromStr decodeBase64 bytes midway stream) :
    stream = wholeStream fromStr decodeBase64 bytes midway := by
  obtain ⟨lines, hlines, rfl⟩ := streams_iff.1 hstream
  rw [wholeStream, h.error lines hlines]
  by_cases herror : endOf midway (told fromStr decodeBase64 bytes midway).2 = none
  · rw [h.audio herror lines hlines]
  · obtain ⟨error, hcause⟩ := Option.ne_none_iff_exists'.1 herror
    have hdrop : (heard fromStr decodeBase64 lines).1.dropLast = [] := by
      rw [← List.length_eq_zero_iff, List.length_dropLast]
      have := h.short herror lines hlines
      omega
    rw [h.empty herror, hcause, streamOf_some, streamOf_some, hdrop]
    rfl

theorem wholeStream_bytes : (wholeStream fromStr decodeBase64 bytes midway).parts.flatMap AudioPart.bytes =
    (told fromStr decodeBase64 bytes midway).1.flatten := by
  by_cases herror : endOf midway (told fromStr decodeBase64 bytes midway).2 = none
  · rw [wholeStream, herror, List.flatMap, streamOf_none_bytes]
  · obtain ⟨error, hcause⟩ := Option.ne_none_iff_exists'.1 herror
    rw [wholeStream, h.empty herror, hcause]
    rfl

theorem faithful : Faithful fromStr decodeBase64 bytes midway where
  alike stream stream' hstream hstream' := by rw [h.eq_wholeStream hstream, h.eq_wholeStream hstream']
  audio stream hstream := by rw [h.eq_wholeStream hstream, h.wholeStream_bytes]
  last stream hstream before part after hparts hlast := by
    rw [h.eq_wholeStream hstream] at hparts ⊢
    exact streamOf_last hparts hlast
  complete stream hstream := by
    rw [h.eq_wholeStream hstream, wholeStream, streamOf_complete]
    constructor
    · rintro ⟨_, hne⟩
      exact ⟨h.ended hne, hne⟩
    · rintro ⟨hended, hne⟩
      exact ⟨by rw [hended]; rfl, hne⟩

end Unmistakable

/-- The stream is faithful to the body exactly when no line is mistaken in pieces and data comes to an end line. -/
theorem faithful_iff :
    Faithful fromStr decodeBase64 bytes midway ↔ Unmistakable fromStr decodeBase64 bytes midway :=
  ⟨Faithful.unmistakable, Unmistakable.faithful⟩

theorem mem_of_mem_linesOf {α : Type} [DecidableEq α] {newline : α} {body line : List α}
    (h : line ∈ linesOf newline midway body) {x : α} (hx : x ∈ line) : x ∈ body := by
  cases midway with
  | none => exact mem_of_mem_splitOn h hx
  | some text => exact mem_of_mem_splitOn (List.dropLast_subset _ h) hx

/-- In a body of single-byte characters only the end can go wrong. -/
theorem unmistakable_ascii (hascii : ∀ b ∈ bytes, b.toNat < 128) :
    Unmistakable fromStr decodeBase64 bytes midway ↔ ((told fromStr decodeBase64 bytes midway).1 ≠ [] →
      (told fromStr decodeBase64 bytes midway).2 = some .ended) := by
  have hwhole (lines : List (List Char)) (hlines : ReadAs bytes midway lines) :
      heard fromStr decodeBase64 lines = told fromStr decodeBase64 bytes midway := by
    rw [told, LossyUtf8.forall₂_readInPieces_ascii hlines fun line hline b hb =>
      hascii b (mem_of_mem_linesOf hline hb)]
  refine ⟨Unmistakable.ended, fun hended => ⟨hended, ?_, ?_, ?_⟩⟩
  · intro lines hlines
    rw [hwhole lines hlines]
  · intro _ lines hlines
    rw [hwhole lines hlines]
  · intro hsome lines hlines
    have hempty : (told fromStr decodeBase64 bytes midway).1 = [] := by
      by_contra hne
      exact hsome (by rw [hended hne]; rfl)
    rw [hwhole lines hlines, hempty]
    exact Nat.zero_le 1

end

/-- One line of data, and what its parts are read as. -/
def dataLine : String := "\x7b\"code\":0,\"data\":\"QQ==\"\x7d"

def readDataLine (text : String) : Option Json :=
  if text = dataLine then some (.obj [("code", .num 0), ("data", .str "QQ==")]) else none

def decodeData (text : String) : Option (List UInt8) := if text = "QQ==" then some [65] else none

/-- A body that stops after its data is reported as complete. -/
theorem plain_stop_complete : ¬ Faithful readDataLine decodeData (dataLine.toList.map Char.toUInt8) none := by
  intro h
  have htold : told readDataLine decodeData (dataLine.toList.map Char.toUInt8) none = ([[65]], none) := by
    decide +kernel
  have hcomplete := h.complete _ streams_wholeStream
  rw [wholeStream, htold, streamOf_complete] at hcomplete
  exact absurd (hcomplete.1 ⟨rfl, List.cons_ne_nil _ _⟩).1 nofun

end Fusions.Ai.Volcengine
