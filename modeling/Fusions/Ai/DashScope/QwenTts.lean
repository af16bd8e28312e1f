import Fusions.Ai.DashScope.TextSegments
import Fusions.Ai.SseData
import Fusions.Ai.Wav
import Fusions.Hetuflow.Core.Json

/-! Whole synthesis of Qwen-TTS: the streams of the segments put together as one WAV. -/
namespace Fusions.Ai.DashScope
open Fusions.Hetuflow Fusions.Library

def maxTextChars : Nat := 600

def pcmSampleRate : UInt32 := 24000

def pcmBitsPerSample : UInt16 := 16

def pcmChannels : UInt16 := 1

inductive SseChunk where
  | data (pcm : List UInt8)
  | final
  | error (code message : String)
  | ignore
  deriving DecidableEq, Repr

/-- `as_str` of a field, else nothing. -/
def textOf (j : Json) (key : String) : String := ((j.get key).bind Json.asStr).getD ""

def errorOf (parsed : Json) : Option SseChunk :=
  let code := textOf parsed "code"
  if code ≠ "" then some (.error code (textOf parsed "message")) else none

def audioOf (parsed : Json) : Option Json := (parsed.get "output").bind fun output => output.get "audio"

/-- `str::starts_with`. -/
def startsWith (s pat : String) : Bool := decide (pat.toList <+: s.toList)

def classifyDashscopeCode (code message : String) : SpeechError :=
  .vendor code message (startsWith code "Throttling")
    (startsWith code "InternalError" || startsWith code "ServiceUnavailable" || startsWith code "Timeout")

/-- The error where the payloads end, if it is one. -/
def bodyError (midway : Option String) (seenData : Bool) : Option SpeechError :=
  match midway with
  | some text => some (.streamMidway text)
  | none => if seenData then none else some (.protocol "qwen-tts stream ended without audio data")

/-- The request of a segment and the answer to it. -/
structure Call where
  text : List Char
  answer : Except String Response

def Call.response (call : Call) : Except SpeechError Response := do
  checkHttp (← call.answer.mapError .transport)

/-- The WAV of all the audio. -/
def stitch (audio : List UInt8) : Except SpeechError (List UInt8) :=
  if audio = [] then .error (.protocol "qwen-tts returned empty audio")
  else if 44 ≤ audio.length ∧ audio.take 4 = riffTag then
    let dataLen := UInt32.ofNat (audio.length - 44)
    let audio := copyFromSlice audio 4 (le32 (saturatingAdd 36 dataLen))
    .ok (copyFromSlice audio 40 (le32 dataLen))
  else .ok (pcmWavHeader pcmSampleRate pcmChannels pcmBitsPerSample (some audio.length) ++ audio)

/-- The calls for the segments of a text. -/
def callsOf (text : List Char) (answers : Nat → Except String Response) : Option (List Call) := do
  let segments ← splitTextSegments text maxTextChars
  return segments.mapIdx fun i segment => ⟨segment, answers i⟩

section
variable (fromStr : String → Option Json) (decodeBase64 : String → Option (List UInt8))

def parseSseChunk (payload : String) : SseChunk :=
  match fromStr payload with
  | none => .ignore
  | some parsed =>
    match errorOf parsed with
    | some error => error
    | none =>
      match audioOf parsed with
      | none => .ignore
      | some audio =>
        let data := textOf audio "data"
        if data ≠ "" then
          -- audio that is not base64 is skipped
          match decodeBase64 data with
          | some bytes => .data bytes
          | none => .ignore
        else if textOf audio "url" ≠ "" then .final else .ignore

/-- The stream of the payloads of one response. -/
def streamRaw (midway : Option String) (seenData : Bool) : List String → AudioStream
  | [] => ⟨[], bodyError midway seenData⟩
  | payload :: payloads =>
    match parseSseChunk fromStr decodeBase64 payload with
    | .data pcm => (streamRaw midway true payloads).after [⟨pcm, false⟩]
    | .final => ⟨[⟨[], true⟩], none⟩
    | .error code message => ⟨[], some (classifyDashscopeCode code message)⟩
    | .ignore => streamRaw midway seenData payloads

def synthesizeStreamRaw (call : Call) : Except SpeechError AudioStream := do
  if call.text = [] then throw (.requestBuild "qwen-tts text is empty")
  let response ← call.response
  return streamRaw fromStr decodeBase64 response.midway false (SseDataParser.new.pushAll response.chunks).2

/-- The audio of the calls one after the other. -/
def synthesizeSegments (audio : List UInt8) : List Call → Except SpeechError (List UInt8)
  | [] => .ok audio
  | call :: calls => do
    let stream ← synthesizeStreamRaw fromStr decodeBase64 call
    match stream.error with
    | some error => throw error
    | none => synthesizeSegments (audio ++ stream.parts.flatMap AudioPart.bytes) calls

/-- `synthesize`, given the answers to its requests. -/
def synthesize (text : List Char) (answers : Nat → Except String Response) :
    Option (Except SpeechError (List UInt8)) := do
  let calls ← callsOf text answers
  return (synthesizeSegments fromStr decodeBase64 [] calls).bind stitch

/-! What the payloads of a stream tell. -/

/-- The payload ends its stream. -/
def ends (payload : String) : Bool :=
  match parseSseChunk fromStr decodeBase64 payload with
  | .final | .error _ _ => true
  | .data _ | .ignore => false

def heard (payloads : List String) : List String := payloads.takeWhile fun p => !ends fromStr decodeBase64 p

/-- How the stream ends, unless the payloads end before. -/
def ending (payloads : List String) : Option SseChunk :=
  (payloads.find? (ends fromStr decodeBase64)).map (parseSseChunk fromStr decodeBase64)

def pcmOf (payload : String) : Option (List UInt8) :=
  match parseSseChunk fromStr decodeBase64 payload with
  | .data pcm => some pcm
  | _ => none

/-- The base64 text of an audio chunk. -/
def audioText (payload : String) : Option String := do
  let parsed ← fromStr payload
  match errorOf parsed with
  | some _ => none
  | none =>
    let audio ← audioOf parsed
    if textOf audio "data" ≠ "" then some (textOf audio "data") else none

/-- An audio chunk that cannot be decoded. -/
def Garbled (payload : String) : Prop := ∃ data, audioText fromStr payload = some data ∧ decodeBase64 data = none

def Call.payloads (call : Call) : List String :=
  match call.response with
  | .ok response => (SseDataParser.new.pushAll response.chunks).2
  | .error _ => []

def Call.audio (call : Call) : List UInt8 :=
  ((heard fromStr decodeBase64 call.payloads).filterMap (pcmOf fromStr decodeBase64)).flatten

/-- The audio behind the header of its first chunk. -/
def Call.pcm (call : Call) : List UInt8 := (call.audio fromStr decodeBase64).drop 44

/-- The first audio chunk of the stream begins with a header. -/
def Call.Headed (call : Call) : Prop :=
  ∀ data bytes, (heard fromStr decodeBase64 call.payloads).findSome? (audioText fromStr) = some data →
    decodeBase64 data = some bytes → HasHeader bytes

/-- The call ends with an error. -/
inductive Call.Fails (call : Call) : Prop where
  | empty (h : call.text = [])
  | refused {error : SpeechError} (h : call.response = .error error)
  | error {code message : String} (h : ending fromStr decodeBase64 call.payloads = some (.error code message))
  | cut {response : Response} (h : call.response = .ok response)
      (hopen : ending fromStr decodeBase64 call.payloads = none)
      (hcut : response.midway.isSome = true ∨
        (heard fromStr decodeBase64 call.payloads).filterMap (pcmOf fromStr decodeBase64) = [])

/-- A text and the answers to its requests, as the module's documentation has them. -/
structure Session where
  text : List Char
  answers : Nat → Except String Response
  headed : ∀ call ∈ (callsOf text answers).getD [], call.Headed fromStr decodeBase64
  small : (((callsOf text answers).getD []).flatMap (Call.audio fromStr decodeBase64)).length < 2 ^ 32

variable {fromStr decodeBase64} in
def Session.calls (session : Session fromStr decodeBase64) : List Call :=
  (callsOf session.text session.answers).getD []

/-- One valid WAV with all the audio of the calls. -/
structure Stitched (calls : List Call) (w : List UInt8) : Prop where
  finals : ∀ call ∈ calls, ending fromStr decodeBase64 call.payloads = some .final
  decoded : ∀ call ∈ calls, ∀ payload ∈ heard fromStr decodeBase64 call.payloads,
    ¬Garbled fromStr decodeBase64 payload
  wav : ∃ (header : WavHeader) (riffSize dataSize : UInt32),
    w = header.bytes riffSize dataSize ++ calls.flatMap (Call.pcm fromStr decodeBase64) ∧
      riffSize.toNat = w.length - 8 ∧ dataSize.toNat = w.length - 44

/-- What is synthesized is that WAV, or an error. -/
structure Whole (session : Session fromStr decodeBase64) : Prop where
  returns : (synthesize fromStr decodeBase64 session.text session.answers).isSome = true
  stitched : ∀ w, synthesize fromStr decodeBase64 session.text session.answers = some (.ok w) →
    Stitched fromStr decodeBase64 session.calls w

/-- A call fails, or there is no audio, or all calls come to their end and only one of them has audio. -/
inductive Plain (calls : List Call) : Prop where
  | fails (h : ∃ call ∈ calls, call.Fails fromStr decodeBase64)
  | silent (h : ∀ call ∈ calls, call.audio fromStr decodeBase64 = [])
  | one (hfinal : ∀ call ∈ calls, ending fromStr decodeBase64 call.payloads = some .final)
      (hdecoded : ∀ call ∈ calls, ∀ payload ∈ heard fromStr decodeBase64 call.payloads,
        ¬Garbled fromStr decodeBase64 payload)
      (hone : (calls.filter fun call => call.audio fromStr decodeBase64 ≠ []).length ≤ 1)

end

section
variable {fromStr : String → Option Json} {decodeBase64 : String → Option (List UInt8)}

theorem ending_cons (payload : String) (payloads : List String) : ending fromStr decodeBase64 (payload :: payloads) =
    if ends fromStr decodeBase64 payload then some (parseSseChunk fromStr decodeBase64 payload)
    else ending fromStr decodeBase64 payloads := by
  rw [ending, List.find?_cons]
  cases ends fromStr decodeBase64 payload <;> rfl

theorem heard_cons (payload : String) (payloads : List String) : heard fromStr decodeBase64 (payload :: payloads) =
    if ends fromStr decodeBase64 payload then [] else payload :: heard fromStr decodeBase64 payloads := by
  rw [heard, List.takeWhile_cons]
  cases ends fromStr decodeBase64 payload <;> rfl

theorem of_data {payload : String} {pcm : List UInt8} (h : parseSseChunk fromStr decodeBase64 payload = .data pcm) :
    ends fromStr decodeBase64 payload = false ∧ pcmOf fromStr decodeBase64 payload = some pcm := by
  rw [ends, pcmOf, h]
  exact ⟨rfl, rfl⟩

theorem of_ignore {payload : String} (h : parseSseChunk fromStr decodeBase64 payload = .ignore) :
    ends fromStr decodeBase64 payload = false ∧ pcmOf fromStr decodeBase64 payload = none := by
  rw [ends, pcmOf, h]
  exact ⟨rfl, rfl⟩

variable (fromStr decodeBase64) in
/-- The parts are the data that are heard. -/
theorem streamRaw_parts (midway : Option String) (seenData : Bool) (payloads : List String) :
    (streamRaw fromStr decodeBase64 midway seenData payloads).parts.flatMap AudioPart.bytes =
      ((heard fromStr decodeBase64 payloads).filterMap (pcmOf fromStr decodeBase64)).flatten := by
  induction payloads generalizing seenData with
  | nil => rfl
  | cons payload payloads ih =>
    rw [streamRaw, heard_cons]
    cases hparse : parseSseChunk fromStr decodeBase64 payload with
    | data pcm =>
      obtain ⟨hends, hpcm⟩ := of_data hparse
      rw [hends, if_neg Bool.false_ne_true, List.filterMap_cons_some hpcm, List.flatten_cons, ← ih true]
      rfl
    | final | error =>
      rw [ends, hparse]
      rfl
    | ignore =>
      obtain ⟨hends, hpcm⟩ := of_ignore hparse
      rw [hends, if_neg Bool.false_ne_true, List.filterMap_cons_none hpcm]
      exact ih seenData

variable (fromStr decodeBase64) in
/-- The error of a stream: the one it ends with, or the one where its payloads end. -/
theorem streamRaw_error (midway : Option String) (seenData : Bool) (payloads : List String) :
    (streamRaw fromStr decodeBase64 midway seenData payloads).error =
      match ending fromStr decodeBase64 payloads with
      | some (.error code message) => some (classifyDashscopeCode code message)
      | some _ => none
      | none => bodyError midway
        (seenData || !((heard fromStr decodeBase64 payloads).filterMap (pcmOf fromStr decodeBase64)).isEmpty) := by
  induction payloads generalizing seenData with
  | nil => exact (congrArg (bodyError midway) (Bool.or_false seenData)).symm
  | cons payload payloads ih =>
    rw [streamRaw, heard_cons, ending_cons]
    cases hparse : parseSseChunk fromStr decodeBase64 payload with
    | data pcm =>
      obtain ⟨hends, hpcm⟩ := of_data hparse
      rw [hends, if_neg Bool.false_ne_true, if_neg Bool.false_ne_true, List.filterMap_cons_some hpcm]
      simpa [AudioStream.after] using ih true
    | final | error =>
      rw [ends, hparse]
      rfl
    | ignore =>
      obtain ⟨hends, hpcm⟩ := of_ignore hparse
      rw [hends, if_neg Bool.false_ne_true, if_neg Bool.false_ne_true, List.filterMap_cons_none hpcm]
      exact ih seenData

/-! The calls. -/

theorem bodyError_isSome {midway : Option String} {seenData : Bool} :
    (bodyError midway seenData).isSome = true ↔ midway.isSome = true ∨ seenData = false := by
  cases midway with
  | some text => exact iff_of_true rfl (.inl rfl)
  | none => cases seenData <;> decide

theorem ending_ends {payloads : List String} {chunk : SseChunk}
    (h : ending fromStr decodeBase64 payloads = some chunk) :
    chunk = .final ∨ ∃ code message, chunk = .error code message := by
  obtain ⟨payload, hfind, rfl⟩ := Option.map_eq_some_iff.1 h
  have hends := List.find?_some hfind
  rw [ends] at hends
  cases hparse : parseSseChunk fromStr decodeBase64 payload with
  | final => exact .inl rfl
  | error code message => exact .inr ⟨code, message, rfl⟩
  | data | ignore =>
    rw [hparse] at hends
    cases hends

theorem payloads_eq {call : Call} {response : Response} (h : call.response = .ok response) :
    call.payloads = (SseDataParser.new.pushAll response.chunks).2 := by
  rw [Call.payloads, h]

variable (fromStr decodeBase64) in
/-- The stream of a call that is answered. -/
theorem synthesizeStreamRaw_ok {call : Call} {response : Response} (htext : call.text ≠ [])
    (h : call.response = .ok response) : synthesizeStreamRaw fromStr decodeBase64 call =
      .ok (streamRaw fromStr decodeBase64 response.midway false call.payloads) := by
  rw [synthesizeStreamRaw, if_neg htext, h, payloads_eq h]
  rfl

variable (fromStr decodeBase64) in
/-- A call fails, or it gives its audio. -/
theorem call_cases (call : Call) :
    (call.Fails fromStr decodeBase64 ∧ ((∃ error, synthesizeStreamRaw fromStr decodeBase64 call = .error error) ∨
      ∃ stream error, synthesizeStreamRaw fromStr decodeBase64 call = .ok stream ∧ stream.error = some error)) ∨
    ¬call.Fails fromStr decodeBase64 ∧ ∃ stream, synthesizeStreamRaw fromStr decodeBase64 call = .ok stream ∧
      stream.error = none ∧ stream.parts.flatMap AudioPart.bytes = call.audio fromStr decodeBase64 := by
  by_cases htext : call.text = []
  · refine .inl ⟨.empty htext, .inl ⟨.requestBuild "qwen-tts text is empty", ?_⟩⟩
    rw [synthesizeStreamRaw, if_pos htext]
    rfl
  cases hresponse : call.response with
  | error error =>
    refine .inl ⟨.refused hresponse, .inl ⟨error, ?_⟩⟩
    rw [synthesizeStreamRaw, if_neg htext, hresponse]
    rfl
  | ok response =>
    have hstream := synthesizeStreamRaw_ok fromStr decodeBase64 htext hresponse
    have herror := streamRaw_error fromStr decodeBase64 response.midway false call.payloads
    have hparts := streamRaw_parts fromStr decodeBase64 response.midway false call.payloads
    cases hending : ending fromStr decodeBase64 call.payloads with
    | some chunk =>
      rw [hending] at herror
      rcases ending_ends hending with rfl | ⟨code, message, rfl⟩
      · refine .inr ⟨fun hfails => ?_, _, hstream, herror, hparts⟩
        cases hfails with
        | empty h => exact htext h
        | refused h => cases hresponse.symm.trans h
        | error h => cases hending.symm.trans h
        | cut _ hopen _ => cases hending.symm.trans hopen
      · exact .inl ⟨.error hending, .inr ⟨_, _, hstream, herror⟩⟩
    | none =>
      rw [hending] at herror
      dsimp only at herror
      rw [Bool.false_or] at herror
      have hsome : (streamRaw fromStr decodeBase64 response.midway false call.payloads).error.isSome = true ↔
          response.midway.isSome = true ∨
            (heard fromStr decodeBase64 call.payloads).filterMap (pcmOf fromStr decodeBase64) = [] := by
        rw [herror, bodyError_isSome, Bool.not_eq_false', List.isEmpty_iff]
      by_cases hcut : response.midway.isSome = true ∨
          (heard fromStr decodeBase64 call.payloads).filterMap (pcmOf fromStr decodeBase64) = []
      · obtain ⟨error, herror⟩ := Option.isSome_iff_exists.1 (hsome.2 hcut)
        exact .inl ⟨.cut hresponse hending hcut, .inr ⟨_, error, hstream, herror⟩⟩
      · have hnone := Option.not_isSome_iff_eq_none.1 (mt hsome.1 hcut)
        refine .inr ⟨fun hfails => ?_, _, hstream, hnone, hparts⟩
        cases hfails with
        | empty h => exact htext h
        | refused h => cases hresponse.symm.trans h
        | error h => cases hending.symm.trans h
        | cut h _ hcut' =>
          cases hresponse.symm.trans h
          exact hcut hcut'

section
variable {call : Call} {stream : AudioStream} (audio : List UInt8) (calls : List Call)

theorem synthesizeSegments_stop {error : SpeechError}
    (hraw : synthesizeStreamRaw fromStr decodeBase64 call = .ok stream) (herror : stream.error = some error) :
    synthesizeSegments fromStr decodeBase64 audio (call :: calls) = .error error := by
  obtain ⟨parts, _⟩ := stream
  subst herror
  rw [synthesizeSegments, hraw]
  rfl

theorem synthesizeSegments_next (hraw : synthesizeStreamRaw fromStr decodeBase64 call = .ok stream)
    (herror : stream.error = none) : synthesizeSegments fromStr decodeBase64 audio (call :: calls) =
      synthesizeSegments fromStr decodeBase64 (audio ++ stream.parts.flatMap AudioPart.bytes) calls := by
  obtain ⟨parts, _⟩ := stream
  subst herror
  rw [synthesizeSegments, hraw]
  rfl

end

theorem synthesizeSegments_failed {calls : List Call} (h : ∃ call ∈ calls, call.Fails fromStr decodeBase64)
    (audio : List UInt8) : ∃ error, synthesizeSegments fromStr decodeBase64 audio calls = .error error := by
  induction calls generalizing audio with
  | nil => exact absurd h (by simp)
  | cons call calls ih =>
    rcases call_cases fromStr decodeBase64 call with
      ⟨-, ⟨error, hraw⟩ | ⟨stream, error, hraw, herror⟩⟩ | ⟨hsound, stream, hraw, herror, -⟩
    · exact ⟨error, by rw [synthesizeSegments, hraw]; rfl⟩
    · exact ⟨error, synthesizeSegments_stop audio calls hraw herror⟩
    · rw [synthesizeSegments_next audio calls hraw herror]
      obtain ⟨failing, hmem, hfails⟩ := h
      rcases List.mem_cons.1 hmem with rfl | hrest
      · exact absurd hfails hsound
      · exact ih ⟨failing, hrest, hfails⟩ _

theorem synthesizeSegments_sound {calls : List Call} (h : ∀ call ∈ calls, ¬call.Fails fromStr decodeBase64)
    (audio : List UInt8) : synthesizeSegments fromStr decodeBase64 audio calls =
      .ok (audio ++ calls.flatMap (Call.audio fromStr decodeBase64)) := by
  induction calls generalizing audio with
  | nil => rw [synthesizeSegments, List.flatMap_nil, List.append_nil]
  | cons call calls ih =>
    obtain ⟨hcall, hcalls⟩ := List.forall_mem_cons.1 h
    rcases call_cases fromStr decodeBase64 call with ⟨hfails, -⟩ | ⟨-, stream, hraw, herror, hparts⟩
    · exact absurd hfails hcall
    · rw [synthesizeSegments_next audio calls hraw herror, ih hcalls, hparts, List.flatMap_cons, List.append_assoc]

/-! The headers. -/

variable (fromStr decodeBase64) in
/-- The data of a chunk are those of its text. -/
theorem pcmOf_eq (payload : String) :
    pcmOf fromStr decodeBase64 payload = (audioText fromStr payload).bind decodeBase64 := by
  unfold pcmOf parseSseChunk audioText
  cases fromStr payload with
  | none => rfl
  | some parsed =>
    dsimp only [Option.bind_eq_bind, Option.bind_some]
    cases herror : errorOf parsed with
    | some error =>
      rw [errorOf] at herror
      split at herror
      · cases herror
        rfl
      · cases herror
    | none =>
      cases audioOf parsed with
      | none => rfl
      | some audio =>
        dsimp only [Option.bind_some]
        by_cases hdata : textOf audio "data" = ""
        · rw [if_neg (not_not.2 hdata), if_neg (not_not.2 hdata)]
          by_cases hurl : textOf audio "url" = ""
          · rw [if_neg (not_not.2 hurl)]
            rfl
          · rw [if_pos hurl]
            rfl
        · rw [if_pos hdata, if_pos hdata, Option.bind_some]
          cases decodeBase64 (textOf audio "data") <;> rfl

/-- Where no chunk is garbled, the first audio that is heard begins with a header. -/
theorem headed_pcm {payloads : List String}
    (hheaded : ∀ data bytes, payloads.findSome? (audioText fromStr) = some data → decodeBase64 data = some bytes →
      HasHeader bytes)
    (hclean : ∀ payload ∈ payloads, ¬Garbled fromStr decodeBase64 payload) :
    payloads.filterMap (pcmOf fromStr decodeBase64) = [] ∨
      ∃ bytes rest, payloads.filterMap (pcmOf fromStr decodeBase64) = bytes :: rest ∧ HasHeader bytes := by
  induction payloads with
  | nil => exact .inl rfl
  | cons payload payloads ih =>
    obtain ⟨hfirst, hrest⟩ := List.forall_mem_cons.1 hclean
    have hpcm := pcmOf_eq fromStr decodeBase64 payload
    cases htext : audioText fromStr payload with
    | none =>
      rw [htext] at hpcm
      rw [List.filterMap_cons_none hpcm]
      refine ih (fun data bytes hfind => hheaded data bytes ?_) hrest
      rw [List.findSome?_cons_of_isNone (by rw [htext]; rfl)]
      exact hfind
    | some data =>
      cases hdecode : decodeBase64 data with
      | none => exact absurd ⟨data, htext, hdecode⟩ hfirst
      | some bytes =>
        rw [htext, Option.bind_some, hdecode] at hpcm
        rw [List.filterMap_cons_some hpcm]
        exact .inr ⟨bytes, _, rfl, hheaded data bytes (by rw [List.findSome?_cons, htext]) hdecode⟩

theorem Call.Headed.audio {call : Call} (h : call.Headed fromStr decodeBase64)
    (hclean : ∀ payload ∈ heard fromStr decodeBase64 call.payloads, ¬Garbled fromStr decodeBase64 payload) :
    call.audio fromStr decodeBase64 = [] ∨ HasHeader (call.audio fromStr decodeBase64) := by
  unfold Call.audio
  rcases headed_pcm h hclean with hnil | ⟨bytes, rest, hpcm, header, riffSize, dataSize, pcm, hbytes⟩
  · rw [hnil]
    exact .inl rfl
  · rw [hpcm, List.flatten_cons, hbytes, List.append_assoc]
    exact .inr ⟨header, riffSize, dataSize, _, rfl⟩

/-- Every call with audio has a header of its own. -/
theorem length_audio {calls : List Call} (h : ∀ call ∈ calls, call.audio fromStr decodeBase64 = [] ∨
      HasHeader (call.audio fromStr decodeBase64)) :
    (calls.flatMap (Call.audio fromStr decodeBase64)).length =
      44 * (calls.filter fun call => call.audio fromStr decodeBase64 ≠ []).length +
        (calls.flatMap (Call.pcm fromStr decodeBase64)).length := by
  induction calls with
  | nil => rfl
  | cons call calls ih =>
    obtain ⟨hcall, hcalls⟩ := List.forall_mem_cons.1 h
    rw [List.flatMap_cons, List.flatMap_cons, List.length_append, List.length_append, ih hcalls, Call.pcm]
    rcases hcall with hnil | ⟨header, riffSize, dataSize, pcm, hbytes⟩
    · rw [List.filter_cons_of_neg (by simpa using hnil), hnil]
      simp
    · have hlength := header.length_bytes riffSize dataSize
      have hne : call.audio fromStr decodeBase64 ≠ [] := by
        intro hnil
        rw [hnil] at hbytes
        rw [(List.append_eq_nil_iff.1 hbytes.symm).1] at hlength
        cases hlength
      rw [List.filter_cons_of_pos (by simpa using hne), hbytes, List.length_cons, List.length_append,
        List.length_drop, List.length_append, hlength]
      omega

/-- The audio of calls of which one has some is its header and their data. -/
theorem audio_of_one {calls : List Call} (h : ∀ call ∈ calls, call.audio fromStr decodeBase64 = [] ∨
      HasHeader (call.audio fromStr decodeBase64))
    (hone : (calls.filter fun call => call.audio fromStr decodeBase64 ≠ []).length ≤ 1)
    (hne : calls.flatMap (Call.audio fromStr decodeBase64) ≠ []) :
    ∃ (header : WavHeader) (riffSize dataSize : UInt32), calls.flatMap (Call.audio fromStr decodeBase64) =
      header.bytes riffSize dataSize ++ calls.flatMap (Call.pcm fromStr decodeBase64) := by
  induction calls with
  | nil => exact absurd rfl hne
  | cons call calls ih =>
    obtain ⟨hcall, hcalls⟩ := List.forall_mem_cons.1 h
    rw [List.flatMap_cons] at hne
    rw [List.flatMap_cons, List.flatMap_cons, Call.pcm]
    by_cases hnil : call.audio fromStr decodeBase64 = []
    · rw [List.filter_cons_of_neg (by simpa using hnil)] at hone
      rw [hnil, List.nil_append] at hne
      rw [hnil, List.nil_append, List.drop_nil, List.nil_append]
      exact ih hcalls hone hne
    · rw [List.filter_cons_of_pos (by simpa using hnil), List.length_cons] at hone
      have hothers : ∀ other ∈ calls, other.audio fromStr decodeBase64 = [] := by
        have hfilter := List.length_eq_zero_iff.1 (Nat.le_zero.1 (Nat.le_of_succ_le_succ hone))
        simpa using hfilter
      have hpcm : calls.flatMap (Call.pcm fromStr decodeBase64) = [] := by
        rw [List.flatMap_eq_nil_iff]
        intro other hother
        rw [Call.pcm, hothers other hother, List.drop_nil]
      rw [List.flatMap_eq_nil_iff.2 hothers, hpcm, List.append_nil, List.append_nil]
      obtain ⟨header, riffSize, dataSize, pcm, hbytes⟩ := hcall.resolve_left hnil
      refine ⟨header, riffSize, dataSize, ?_⟩
      rw [hbytes, ← header.length_bytes riffSize dataSize, List.drop_left]

/-- The length of what is made of some audio. -/
theorem stitch_ok {audio : List UInt8} (h : audio ≠ []) :
    ∃ w, stitch audio = .ok w ∧ (w.length = audio.length ∨ w.length = 44 + audio.length) := by
  rw [stitch, if_neg h]
  by_cases hheader : 44 ≤ audio.length ∧ audio.take 4 = riffTag
  · rw [if_pos hheader]
    refine ⟨_, rfl, .inl ?_⟩
    have hfirst : ∀ n, (copyFromSlice audio 4 (le32 n)).length = audio.length := by
      intro n
      exact length_copyFromSlice (by rw [length_le32]; omega)
    rw [length_copyFromSlice (by rw [length_le32, hfirst]; omega), hfirst]
  · rw [if_neg hheader]
    refine ⟨_, rfl, .inr ?_⟩
    obtain ⟨header, hwav⟩ := pcmWavHeader_eq pcmSampleRate pcmChannels pcmBitsPerSample (some audio.length)
    rw [hwav, List.length_append, header.length_bytes]

/-- Audio with one header in front of it comes back with the sizes that it has. -/
theorem stitch_header {audio pcm : List UInt8} {header : WavHeader} {riffSize dataSize : UInt32}
    (h : audio = header.bytes riffSize dataSize ++ pcm) (hsmall : audio.length < 2 ^ 32) :
    ∃ (w : List UInt8) (riffSize' dataSize' : UInt32), stitch audio = .ok w ∧
      w = header.bytes riffSize' dataSize' ++ pcm ∧
      riffSize'.toNat = w.length - 8 ∧ dataSize'.toNat = w.length - 44 := by
  have hlength : audio.length = 44 + pcm.length := by rw [h, List.length_append, header.length_bytes]
  have hne : audio ≠ [] := List.length_pos_iff.1 (by omega)
  have htag : audio.take 4 = riffTag := by
    rw [h]
    rfl
  obtain ⟨hdata, hriff⟩ := toNat_sizes (n := audio.length - 44) (by omega)
  refine ⟨_, saturatingAdd 36 (UInt32.ofNat (audio.length - 44)), UInt32.ofNat (audio.length - 44), ?_, rfl, ?_, ?_⟩
  · rw [stitch, if_neg hne, if_pos ⟨by omega, htag⟩]
    dsimp only
    conv_lhs => rw [h]
    rw [header.copy_sizes]
    rw [h]
  · rw [hriff, List.length_append, header.length_bytes]
    omega
  · rw [hdata, List.length_append, header.length_bytes]
    omega

/-! The whole synthesis. -/

theorem exists_calls (text : List Char) (answers : Nat → Except String Response) :
    ∃ calls, callsOf text answers = some calls := by
  have hsplit : ∃ segments, splitTextSegments text maxTextChars = some segments := by
    rcases Nat.lt_or_ge maxTextChars text.length with hlong | hshort
    · obtain ⟨_, -, hsplit⟩ := splitTextSegments_long (by decide) hlong
      exact ⟨_, hsplit⟩
    · exact ⟨_, splitTextSegments_short hshort⟩
  obtain ⟨segments, hsplit⟩ := hsplit
  exact ⟨_, by rw [callsOf, hsplit]; rfl⟩

theorem Session.synthesize_eq (session : Session fromStr decodeBase64) :
    synthesize fromStr decodeBase64 session.text session.answers =
      some ((synthesizeSegments fromStr decodeBase64 [] session.calls).bind stitch) := by
  obtain ⟨calls, hcalls⟩ := exists_calls session.text session.answers
  rw [synthesize, Session.calls, hcalls]
  rfl

end

/-- An error, or the WAV: but for a stream that is cut off, a chunk that is skipped, and a second header. -/
theorem whole_iff (fromStr : String → Option Json) (decodeBase64 : String → Option (List UInt8))
    (session : Session fromStr decodeBase64) :
    Whole fromStr decodeBase64 session ↔ Plain fromStr decodeBase64 session.calls := by
  have heq := session.synthesize_eq
  have hreturns : (synthesize fromStr decodeBase64 session.text session.answers).isSome = true := by
    rw [heq]
    rfl
  by_cases hfails : ∃ call ∈ session.calls, call.Fails fromStr decodeBase64
  · obtain ⟨error, herror⟩ := synthesizeSegments_failed hfails []
    rw [herror] at heq
    refine iff_of_true ⟨hreturns, fun w hw => ?_⟩ (.fails hfails)
    cases Option.some.inj (heq.symm.trans hw)
  have hsound : ∀ call ∈ session.calls, ¬call.Fails fromStr decodeBase64 := fun call hc h => hfails ⟨call, hc, h⟩
  rw [synthesizeSegments_sound hsound, List.nil_append] at heq
  by_cases hsilent : session.calls.flatMap (Call.audio fromStr decodeBase64) = []
  · rw [hsilent] at heq
    refine iff_of_true ⟨hreturns, fun w hw => ?_⟩ (.silent (List.flatMap_eq_nil_iff.1 hsilent))
    cases Option.some.inj (heq.symm.trans hw)
  have hheaders (hdecoded : ∀ call ∈ session.calls, ∀ payload ∈ heard fromStr decodeBase64 call.payloads,
      ¬Garbled fromStr decodeBase64 payload) (call : Call) (hc : call ∈ session.calls) :
      call.audio fromStr decodeBase64 = [] ∨ HasHeader (call.audio fromStr decodeBase64) :=
    (session.headed call hc).audio (hdecoded call hc)
  constructor
  · intro h
    obtain ⟨w, hw, hlength⟩ := stitch_ok hsilent
    obtain ⟨hfinal, hdecoded, header, riffSize, dataSize, hwav, -⟩ := h.stitched w (heq.trans (congrArg some hw))
    refine .one hfinal hdecoded ?_
    have haudio := length_audio (hheaders hdecoded)
    have hbytes := congrArg List.length hwav
    rw [List.length_append, header.length_bytes] at hbytes
    omega
  · intro h
    cases h with
    | fails h => exact absurd h hfails
    | silent h => exact absurd (List.flatMap_eq_nil_iff.2 h) hsilent
    | one hfinal hdecoded hone =>
      obtain ⟨header, riffSize, dataSize, haudio⟩ := audio_of_one (hheaders hdecoded) hone hsilent
      obtain ⟨w, riffSize', dataSize', hw, hwav, hsizes⟩ := stitch_header haudio session.small
      refine ⟨hreturns, fun v hv => ?_⟩
      obtain rfl := Except.ok.inj (hw.symm.trans (Option.some.inj (heq.symm.trans hv)))
      exact ⟨hfinal, hdecoded, header, riffSize', dataSize', hwav, hsizes⟩

/-- A header with one byte behind it, and its base64 text. -/
def headedAudio : List UInt8 := pcmWavHeader 24000 1 16 none ++ [10]

def headedText : String := "UklGRv////9XQVZFZm10IBAAAAABAAEAwF0AAIC7AAACABAAZGF0Yf////8K"

def dataPayload : String := "\x7b\"output\":\x7b\"audio\":\x7b\"data\":\"" ++ headedText ++ "\"\x7d\x7d\x7d"

def readsPayload (s : String) : Option Json :=
  if s = dataPayload then some (.obj [("output", .obj [("audio", .obj [("data", .str headedText)])])])
  else none

def decodesHeaded (s : String) : Option (List UInt8) := if s = headedText then some headedAudio else none

theorem decodesHeaded_headed (call : Call) : call.Headed readsPayload decodesHeaded := by
  intro data bytes _ hdecode
  rw [decodesHeaded] at hdecode
  split at hdecode
  · obtain rfl := Option.some.inj hdecode
    obtain ⟨header, hheader⟩ := pcmWavHeader_eq 24000 1 16 none
    exact ⟨header, _, _, [10], by rw [headedAudio, hheader]⟩
  · cases hdecode

/-- A response that ends behind its first chunk. -/
def cutResponse : Response := ⟨200, none, [("data: " ++ dataPayload ++ "\n").toUTF8.toList], none⟩

def cutCall : Call := ⟨['a'], .ok cutResponse⟩

theorem toList_append_append (s t u : String) : (s ++ t ++ u).toList = s.toList ++ t.toList ++ u.toList := by
  rw [String.toList_append, String.toList_append]

theorem dataPayload_toList : dataPayload.toList =
    "\x7b\"output\":\x7b\"audio\":\x7b\"data\":\"".toList ++ headedText.toList ++ "\"\x7d\x7d\x7d".toList :=
  toList_append_append _ headedText _

theorem cutCall_payloads : cutCall.payloads = [dataPayload] := by
  have hresponse : cutCall.response = .ok cutResponse := rfl
  have hline : '\n' ∉ dataPayload.toList := by
    rw [dataPayload_toList, headedText]
    simp
  have hspace : ∀ c ∈ dataPayload.toList, Library.isWhitespace c = false := by
    rw [dataPayload_toList, headedText]
    simp [Library.isWhitespace]
  have hne : dataPayload ≠ "" := by
    intro hempty
    have htext := dataPayload_toList
    rw [hempty] at htext
    simp at htext
  rw [payloads_eq hresponse]
  exact pushAll_line hline (trim_of_forall hspace) hne

theorem parse_dataPayload : parseSseChunk readsPayload decodesHeaded dataPayload = .data headedAudio := by
  have hreads : readsPayload dataPayload =
      some (.obj [("output", .obj [("audio", .obj [("data", .str headedText)])])]) := if_pos rfl
  have hdecodes : decodesHeaded headedText = some headedAudio := if_pos rfl
  have hne : headedText ≠ "" := by simp [headedText]
  simp [parseSseChunk, hreads, errorOf, audioOf, textOf, Json.get, List.lookup_cons, Json.asStr, hne, hdecodes]

/-- What is heard of the call is its one chunk, and no end. -/
theorem cutCall_heard : ending readsPayload decodesHeaded cutCall.payloads = none ∧
    (heard readsPayload decodesHeaded cutCall.payloads).filterMap (pcmOf readsPayload decodesHeaded) =
      [headedAudio] := by
  obtain ⟨hends, hpcm⟩ := of_data parse_dataPayload
  rw [cutCall_payloads, ending_cons, heard_cons, hends, if_neg Bool.false_ne_true, if_neg Bool.false_ne_true,
    List.filterMap_cons_some hpcm]
  exact ⟨rfl, rfl⟩

/-- The stream of one segment that is cut off. -/
def cutSession : Session readsPayload decodesHeaded where
  text := ['a']
  answers _ := .ok cutResponse
  headed call _ := decodesHeaded_headed call
  small := by
    change ([cutCall].flatMap (Call.audio readsPayload decodesHeaded)).length < 2 ^ 32
    rw [List.flatMap_singleton, Call.audio, cutCall_heard.2]
    decide

/-- A stream without its end is taken as a whole one. -/
theorem cutSession_not_whole : ¬Whole readsPayload decodesHeaded cutSession := by
  have hcalls : cutSession.calls = [cutCall] := rfl
  have hsound : ∀ call ∈ [cutCall], ¬call.Fails readsPayload decodesHeaded := by
    intro call hcall hfails
    rw [List.mem_singleton.1 hcall] at hfails
    cases hfails with
    | empty h => cases h
    | refused h => cases h
    | error h => cases cutCall_heard.1.symm.trans h
    | cut h _ hcut =>
      obtain rfl := Except.ok.inj h
      rw [cutCall_heard.2] at hcut
      exact absurd hcut (by decide)
  have heq := cutSession.synthesize_eq
  rw [hcalls, synthesizeSegments_sound hsound, List.nil_append, List.flatMap_singleton, Call.audio,
    cutCall_heard.2] at heq
  obtain ⟨w, hw, -⟩ := stitch_ok (show [headedAudio].flatten ≠ [] by decide)
  intro h
  have hstitched := h.stitched w (heq.trans (congrArg some hw))
  have hfinal := hstitched.finals cutCall (by rw [hcalls]; exact List.mem_singleton_self _)
  cases cutCall_heard.1.symm.trans hfinal

end Fusions.Ai.DashScope
