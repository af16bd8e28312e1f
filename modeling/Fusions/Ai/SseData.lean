import Fusions.Ai.Speech
import Fusions.Library.FaultlessUtf8
import Fusions.Library.Find
import Fusions.Library.Lines
import Fusions.Library.Trim

/-! The `data:` lines of a server-sent event stream that comes in chunks. -/
namespace Fusions.Ai
open Fusions.Library
open Fusions.Library.LossyUtf8 (fromUtf8Lossy fromUtf8Lossy_utf8 exists_encode_of_append exists_encode_cut)

structure SseDataParser where
  buffer : List Char
  deriving DecidableEq, Repr

namespace SseDataParser

def new : SseDataParser := ⟨[]⟩

/-- The payload of a line, its line break taken off. -/
def payload (line : List Char) : Option String := do
  let line := line.rdropWhile fun c => c == '\n' || c == '\r'
  let payload ← stripPrefix "data:".toList line
  let payload := trim (String.ofList payload)
  if payload ≠ "" then some payload else none

/-- The payloads of the lines in the buffer, and what is left of it. -/
def drain (buffer : List Char) : List String × List Char :=
  match _htake : takeLine buffer with
  | none => ([], buffer)
  | some (line, rest) => ((payload (line ++ ['\n'])).toList ++ (drain rest).1, (drain rest).2)
  termination_by buffer.length
  decreasing_by all_goals exact takeLine_length _htake

def pushChunk (self : SseDataParser) (bytes : List UInt8) : SseDataParser × List String :=
  let (payloads, buffer) := drain (self.buffer ++ fromUtf8Lossy bytes)
  (⟨buffer⟩, payloads)

/-- The chunks one after the other. -/
def pushAll (self : SseDataParser) : List (List UInt8) → SseDataParser × List String
  | [] => (self, [])
  | chunk :: chunks =>
    let (next, payloads) := self.pushChunk chunk
    ((next.pushAll chunks).1, payloads ++ (next.pushAll chunks).2)

end SseDataParser

/-- The trimmed payload of a `data:` line, unless there is none. -/
def dataOf (line : List Char) : Option String :=
  if "data:".toList <+: line then
    let data := trim (String.ofList (line.drop 5))
    if data = "" then none else some data
  else none

/-- A text in chunks of its bytes. -/
structure Cutting (text : String) where
  chunks : List (List UInt8)
  flatten_eq : chunks.flatten = text.toUTF8.toList

/-- A cutting is parsed as its text: the payloads are those of its ended lines, and what is kept is the open line of
the chunks that came. -/
structure Framed (text : String) (cutting : Cutting text) : Prop where
  payloads : (SseDataParser.new.pushAll cutting.chunks).2 = (completeLines '\n' text.toList).filterMap dataOf
  residue : ∀ front back, cutting.chunks = front ++ back →
    (SseDataParser.new.pushAll front).1.buffer.flatMap String.utf8EncodeChar = openLine 10 front.flatten

structure FramedAlike (text : String) (cutting cutting' : Cutting text) : Prop where
  framed : Framed text cutting
  framed' : Framed text cutting'
  same : (SseDataParser.new.pushAll cutting.chunks).2 = (SseDataParser.new.pushAll cutting'.chunks).2

/-- No cut is inside a character. -/
def Cutting.Whole {text : String} (cutting : Cutting text) : Prop :=
  ∀ chunk ∈ cutting.chunks, ∃ s : String, chunk = s.toUTF8.toList

/-! Lines. -/

/-- Line breaks behind a line that begins otherwise do not make it a `data:` line. -/
theorem data_line_iff {line breaks : List Char} (h : ∀ c ∈ breaks, (c == '\n' || c == '\r') = true) :
    "data:".toList <+: line ++ breaks ↔ "data:".toList <+: line := by
  constructor
  · intro hprefix
    rcases List.prefix_or_prefix_of_prefix hprefix (List.prefix_append line breaks) with hline | ⟨rest, hrest⟩
    · exact hline
    · rw [← hrest] at hprefix ⊢
      cases rest with
      | nil => rw [List.append_nil]
      | cons c rest =>
        obtain ⟨_, hbreaks⟩ := (List.prefix_append_right_inj line).1 hprefix
        have hc : c ∈ "data:".toList := by
          rw [← hrest]
          simp
        have hbreak := h c (by rw [← hbreaks]; exact List.mem_cons_self ..)
        have hall : ("data:".toList.all fun c => !(c == '\n' || c == '\r')) = true := by decide
        simpa [hbreak] using List.all_eq_true.1 hall c hc
  · rintro ⟨rest, rfl⟩
    exact ⟨rest ++ breaks, (List.append_assoc ..).symm⟩

theorem payload_eq (line : List Char) : SseDataParser.payload (line ++ ['\n']) = dataOf line := by
  have hdrop : (line ++ ['\n']).rdropWhile (fun c => c == '\n' || c == '\r') =
      line.rdropWhile (fun c => c == '\n' || c == '\r') := List.rdropWhile_concat_pos _ _ _ (by decide)
  unfold SseDataParser.payload
  rw [hdrop]
  obtain ⟨kept, breaks, hkept, hline, hbreaks⟩ : ∃ kept breaks,
      line.rdropWhile (fun c => c == '\n' || c == '\r') = kept ∧ line = kept ++ breaks ∧
        ∀ c ∈ breaks, (c == '\n' || c == '\r') = true :=
    ⟨_, _, rfl, List.rdropWhile_append_rtakeWhile.symm, fun _ hc =>
      List.mem_rtakeWhile_imp (p := fun c => c == '\n' || c == '\r') hc⟩
  have hspace : ∀ c ∈ breaks, isWhitespace c = true := by
    intro c hc
    rcases Bool.or_eq_true_iff.1 (hbreaks c hc) with h | h <;> rw [beq_iff_eq.1 h] <;> decide
  rw [hkept, hline, dataOf]
  dsimp only
  rcases stripPrefix_cases "data:".toList kept with ⟨content, rfl, hstrip⟩ | ⟨hnone, hstrip⟩
  · have hrest : ("data:".toList ++ content ++ breaks).drop 5 = content ++ breaks := by
      rw [List.append_assoc]
      rfl
    rw [hstrip, if_pos ((data_line_iff hbreaks).2 (List.prefix_append ..)), hrest, trim_append hspace,
      Option.bind_eq_bind, Option.bind_some, ite_not]
  · rw [hstrip, if_neg fun h => hnone ((data_line_iff hbreaks).1 h)]
    rfl

theorem drain_eq (buffer : List Char) : SseDataParser.drain buffer =
    ((completeLines '\n' buffer).filterMap dataOf, openLine '\n' buffer) := by
  fun_induction SseDataParser.drain buffer with
  | case1 buffer htake =>
    rw [completeLines_of_notMem (takeLine_eq_none.1 htake), openLine_of_notMem (takeLine_eq_none.1 htake)]
    rfl
  | case2 buffer line rest htake ih =>
    obtain ⟨rfl, hline⟩ := takeLine_eq_some htake
    rw [ih, completeLines_cons hline, openLine_cons, payload_eq, List.filterMap_cons]
    cases dataOf line <;> rfl

/-- The chunks are parsed as the lines of the text that they are read as. -/
theorem pushAll_eq {self : SseDataParser} (h : '\n' ∉ self.buffer) (chunks : List (List UInt8)) :
    self.pushAll chunks =
      (⟨openLine '\n' (self.buffer ++ chunks.flatMap fromUtf8Lossy)⟩,
        (completeLines '\n' (self.buffer ++ chunks.flatMap fromUtf8Lossy)).filterMap dataOf) := by
  induction chunks generalizing self with
  | nil =>
    rw [List.flatMap_nil, List.append_nil, completeLines_of_notMem h, openLine_of_notMem h]
    rfl
  | cons chunk chunks ih =>
    have hpush : self.pushChunk chunk = (⟨openLine '\n' (self.buffer ++ fromUtf8Lossy chunk)⟩,
        (completeLines '\n' (self.buffer ++ fromUtf8Lossy chunk)).filterMap dataOf) := by
      rw [SseDataParser.pushChunk, drain_eq]
    rw [SseDataParser.pushAll, hpush]
    have hnext := @ih ⟨openLine '\n' (self.buffer ++ fromUtf8Lossy chunk)⟩ (newline_notMem_openLine _)
    dsimp only at hnext ⊢
    rw [hnext, List.flatMap_cons, ← List.append_assoc, completeLines_append (self.buffer ++ fromUtf8Lossy chunk),
      openLine_append (self.buffer ++ fromUtf8Lossy chunk), List.filterMap_append]

theorem pushAll_new (chunks : List (List UInt8)) : SseDataParser.new.pushAll chunks =
    (⟨openLine '\n' (chunks.flatMap fromUtf8Lossy)⟩,
      (completeLines '\n' (chunks.flatMap fromUtf8Lossy)).filterMap dataOf) :=
  pushAll_eq List.not_mem_nil chunks

/-- A payload on a line of its own comes back. -/
theorem pushAll_line {payload : String} (hline : '\n' ∉ payload.toList) (htrim : trim payload = payload)
    (hne : payload ≠ "") :
    (SseDataParser.new.pushAll [("data: " ++ payload ++ "\n").toUTF8.toList]).2 = [payload] := by
  have htext : ("data: " ++ payload ++ "\n").toList = ("data: ".toList ++ payload.toList) ++ ['\n'] := by simp
  have hnone : '\n' ∉ "data: ".toList ++ payload.toList := by simpa using hline
  have hdata : dataOf ("data: ".toList ++ payload.toList) = some payload := by
    have hspace : trim (String.ofList (' ' :: payload.toList)) = trim payload := by
      rw [trim, String.toList_ofList, List.dropWhile_cons_of_pos (by decide)]
      rfl
    have hrest : ("data: ".toList ++ payload.toList).drop 5 = ' ' :: payload.toList := by simp
    rw [dataOf, if_pos ⟨' ' :: payload.toList, by simp⟩, hrest, hspace, htrim, if_neg hne]
  rw [pushAll_new, List.flatMap_singleton, fromUtf8Lossy_utf8, htext, completeLines_cons hnone,
    List.filterMap_cons_some hdata]
  rfl

/-! Bytes. -/

theorem newline_mem_encode {cs : List Char} : 10 ∈ cs.flatMap String.utf8EncodeChar ↔ '\n' ∈ cs := by
  have hmem := mem_utf8 (c := '\n') (by decide) (s := String.ofList cs)
  rwa [utf8_toList, String.toList_ofList] at hmem

theorem openLine_encode (cs : List Char) :
    (openLine '\n' cs).flatMap String.utf8EncodeChar = openLine 10 (cs.flatMap String.utf8EncodeChar) := by
  induction cs using lines_induction '\n' with
  | last cs h => rw [openLine_of_notMem h, openLine_of_notMem (mt newline_mem_encode.1 h)]
  | line line rest _ ih =>
    have hnewline : String.utf8EncodeChar '\n' = [10] := utf8EncodeChar_ascii (by decide)
    rw [openLine_cons, ih, List.flatMap_append, List.flatMap_cons, hnewline, List.singleton_append, openLine_cons]

theorem encode_injective {s t : List Char}
    (h : s.flatMap String.utf8EncodeChar = t.flatMap String.utf8EncodeChar) : s = t := by
  rw [← String.toList_ofList (l := s), ← String.toList_ofList (l := t), ← utf8_toList, ← utf8_toList] at h
  have heq := congrArg String.toList (utf8_injective h)
  rwa [String.toList_ofList, String.toList_ofList] at heq

/-- Chunks that are texts are read as their bytes. -/
theorem encode_fromUtf8Lossy {chunks : List (List UInt8)}
    (h : ∀ chunk ∈ chunks, ∃ s : String, chunk = s.toUTF8.toList) :
    (chunks.flatMap fromUtf8Lossy).flatMap String.utf8EncodeChar = chunks.flatten := by
  induction chunks with
  | nil => rfl
  | cons chunk chunks ih =>
    obtain ⟨s, rfl⟩ := h chunk (List.mem_cons_self ..)
    rw [List.flatMap_cons, List.flatMap_append, ih fun chunk hc => h chunk (List.mem_cons_of_mem _ hc),
      fromUtf8Lossy_utf8, ← utf8_toList, List.flatten_cons]

theorem Cutting.Whole.framed {text : String} {cutting : Cutting text} (h : cutting.Whole) : Framed text cutting where
  payloads := by
    have hread : cutting.chunks.flatMap fromUtf8Lossy = text.toList := by
      apply encode_injective
      rw [encode_fromUtf8Lossy h, cutting.flatten_eq, utf8_toList]
    rw [pushAll_new, hread]
  residue front back hsplit := by
    have hfront : ∀ chunk ∈ front, ∃ s : String, chunk = s.toUTF8.toList := by
      intro chunk hc
      exact h chunk (by rw [hsplit]; exact List.mem_append_left _ hc)
    rw [pushAll_new, openLine_encode, encode_fromUtf8Lossy hfront]

/-- The chunks that came are a text, as their open line is. -/
theorem Framed.front {text : String} {cutting : Cutting text} (h : Framed text cutting) {front back : List (List UInt8)}
    (hsplit : cutting.chunks = front ++ back) : ∃ cs : List Char, front.flatten = cs.flatMap String.utf8EncodeChar := by
  have hopen := h.residue front back hsplit
  rcases exists_openLine 10 front.flatten with hfront | ⟨lines, hfront⟩
  · exact ⟨_, hfront.trans hopen.symm⟩
  · have hbytes : lines ++ 10 :: (openLine 10 front.flatten ++ back.flatten) =
        text.toList.flatMap String.utf8EncodeChar := by
      rw [← List.cons_append, ← List.append_assoc, ← hfront, ← List.flatten_append, ← hsplit, cutting.flatten_eq,
        utf8_toList]
    obtain ⟨⟨ended, hended⟩, -⟩ := exists_encode_cut (by decide) hbytes
    refine ⟨ended ++ '\n' :: (SseDataParser.new.pushAll front).1.buffer, ?_⟩
    have hnewline : String.utf8EncodeChar '\n' = [10] := utf8EncodeChar_ascii (by decide)
    rw [List.flatMap_append, List.flatMap_cons, hopen, hnewline, ← hended, List.singleton_append, ← hfront]

theorem Framed.whole {text : String} {cutting : Cutting text} (h : Framed text cutting) : cutting.Whole := by
  intro chunk hc
  obtain ⟨front, back, hsplit⟩ := List.append_of_mem hc
  obtain ⟨s, hs⟩ := h.front hsplit
  have hsplit' : cutting.chunks = (front ++ [chunk]) ++ back := by rw [hsplit, List.append_assoc]; rfl
  obtain ⟨t, ht⟩ := h.front hsplit'
  rw [List.flatten_append, List.flatten_singleton, hs] at ht
  obtain ⟨u, hu⟩ := exists_encode_of_append ht
  exact ⟨String.ofList u, by rw [hu, utf8_toList, String.toList_ofList]⟩

theorem framedAlike_iff (text : String) (cutting cutting' : Cutting text) :
    FramedAlike text cutting cutting' ↔ cutting.Whole ∧ cutting'.Whole := by
  constructor
  · intro h
    exact ⟨h.framed.whole, h.framed'.whole⟩
  · rintro ⟨h, h'⟩
    exact ⟨h.framed, h'.framed, h.framed.payloads.trans h'.framed.payloads.symm⟩

theorem accentBytes : "data:\u00e9\n".toUTF8.toList = [100, 97, 116, 97, 58, 0xC3, 0xA9, 10] := by decide +kernel

def wholeAccent : Cutting "data:\u00e9\n" := ⟨[[100, 97, 116, 97, 58, 0xC3, 0xA9, 10]], accentBytes.symm⟩

def cutAccent : Cutting "data:\u00e9\n" := ⟨[[100, 97, 116, 97, 58, 0xC3], [0xA9, 10]], accentBytes.symm⟩

/-- A character of two bytes that comes in two chunks is read as two replacements. -/
theorem cut_character : ∃ (text : String) (cutting cutting' : Cutting text), ¬FramedAlike text cutting cutting' ∧
    (SseDataParser.new.pushAll cutting.chunks).2 = ["\u00e9"] ∧
    (SseDataParser.new.pushAll cutting'.chunks).2 = ["\ufffd\ufffd"] := by
  have hwhole : (SseDataParser.new.pushAll wholeAccent.chunks).2 = ["\u00e9"] := by decide +kernel
  have hcut : (SseDataParser.new.pushAll cutAccent.chunks).2 = ["\ufffd\ufffd"] := by decide +kernel
  refine ⟨_, wholeAccent, cutAccent, fun h => ?_, hwhole, hcut⟩
  have hsame := h.same
  rw [hwhole, hcut] at hsame
  exact absurd hsame (by decide)

end Fusions.Ai
