import Fusions.Ai.AudioHex
import Fusions.Ai.SseData
import Fusions.Hetuflow.Core.Json

/-! Synthesis of MiniMax, whole and streamed. -/
namespace Fusions.Ai.Minimax
open Fusions.Hetuflow Fusions.Library

def rateLimitCode : Int32 := 1002

def permanentCodes : List Int32 := [1008, 1004, 2013]

structure T2aBaseResp where
  statusCode : Int32
  statusMsg : String

structure T2aAudioData where
  audio : String
  subtitleFile : Option String

structure T2aResponse where
  baseResp : Option T2aBaseResp
  data : Option T2aAudioData

structure T2aStreamChunk where
  data : Option T2aAudioData
  extraInfo : Option Json
  baseResp : Option T2aBaseResp

structure T2aAudio where
  audio : List UInt8
  subtitle : Option (List UInt8)
  subtitleUrl : Option String

structure MinimaxTts where
  apiKey : Option String
  groupId : Option String

def MinimaxTts.requireConfig (self : MinimaxTts) : Except SpeechError (String × String) :=
  match self.apiKey, self.groupId with
  | some key, some group => .ok (key, group)
  | _, _ => .error (.requestBuild "minimax api_key or group_id missing (MINIMAX_API_KEY / MINIMAX_GROUP_ID)")

def classifyBaseResp (statusCode : Int32) (statusMsg : String) : SpeechError :=
  .vendor (toString statusCode) statusMsg (statusCode == rateLimitCode)
    (!permanentCodes.contains statusCode && statusCode != rateLimitCode)

/-- The error of a code that is not zero. -/
def baseError (baseResp : Option T2aBaseResp) : Option SpeechError :=
  match baseResp with
  | some base => if base.statusCode ≠ 0 then some (classifyBaseResp base.statusCode base.statusMsg) else none
  | none => none

def audioHex (data : Option T2aAudioData) : String := (data.map T2aAudioData.audio).getD ""

def hexFailure : SpeechError := .protocol "t2a_v2 audio hex decode failed: odd length"

def parseT2aResponse (parsed : T2aResponse) : Except SpeechError T2aAudio :=
  match baseError parsed.baseResp with
  | some error => .error error
  | none =>
    match decodeHex (audioHex parsed.data) with
    | none => .error hexFailure
    | some [] => .error (.protocol "t2a_v2 returned empty audio")
    | some audio =>
      let rawSubtitle := (parsed.data.bind T2aAudioData.subtitleFile).filter (· ≠ "")
      match rawSubtitle with
      | some s =>
        if "http".toList <+: s.toList then .ok ⟨audio, none, some s⟩ else .ok ⟨audio, decodeHex s, none⟩
      | none => .ok ⟨audio, none, none⟩

/-- The part of a chunk. Audio that is not hexadecimal is skipped. -/
def partOf (parsed : T2aStreamChunk) : AudioPart :=
  let isLast := parsed.extraInfo.isSome
  let hex := audioHex parsed.data
  let audio := if hex = "" then [] else (decodeHex hex).getD []
  ⟨audio, isLast⟩

section
variable (fromStr : String → Option T2aStreamChunk)

/-- The stream of the payloads, and of the error that cuts the response off behind them. -/
def streamPayloads (midway : Option String) : List String → AudioStream
  | [] => ⟨[], midway.map .streamMidway⟩
  | payload :: payloads =>
    match fromStr payload with
    | none => streamPayloads midway payloads
    | some parsed =>
      match baseError parsed.baseResp with
      | some error => ⟨[], some error⟩
      | none =>
        if parsed.extraInfo.isSome then ⟨[partOf parsed], none⟩
        else (streamPayloads midway payloads).after [partOf parsed]

/-- `synthesize_stream`, given the answer to its request. -/
def MinimaxTts.synthesizeStream (self : MinimaxTts) (answer : Except String Response) :
    Except SpeechError AudioStream := do
  let _ ← self.requireConfig
  let response ← checkHttp (← answer.mapError .transport)
  return streamPayloads fromStr response.midway (SseDataParser.new.pushAll response.chunks).2

end

/-- The chunks up to the first with extra info. -/
def upToEnd : List T2aStreamChunk → List T2aStreamChunk
  | [] => []
  | chunk :: chunks => if chunk.extraInfo.isSome then [chunk] else chunk :: upToEnd chunks

def T2aStreamChunk.Fails (chunk : T2aStreamChunk) : Prop := (baseError chunk.baseResp).isSome = true

def T2aStreamChunk.Ends (chunk : T2aStreamChunk) : Prop := chunk.extraInfo.isSome = true

/-- As a whole response the data of the chunk are rejected for their hex text. -/
def T2aStreamChunk.Rejected (chunk : T2aStreamChunk) : Prop :=
  parseT2aResponse ⟨none, chunk.data⟩ = .error hexFailure

/-- The parts are what the chunks decode to, and the last of them says so. -/
structure Finished (told : List T2aStreamChunk) (stream : AudioStream) : Prop where
  error : stream.error = none
  pieces : List.Forall₂ (fun chunk part => decodeHex (audioHex chunk.data) = some part.bytes) told stream.parts
  decoded : (∀ chunk ∈ told, ∃ bytes, Spells (audioHex chunk.data).toList bytes) →
    decodeHex (String.join (told.map fun chunk => audioHex chunk.data)) = some (stream.parts.flatMap AudioPart.bytes)
  last : ∃ front last, stream.parts = front ++ [last] ∧ last.isLast = true ∧ ∀ part ∈ front, part.isLast = false

structure Aborted (stream : AudioStream) : Prop where
  error : stream.error.isSome = true
  notLast : ∀ part ∈ stream.parts, part.isLast = false

/-- What is streamed agrees with the whole synthesis. -/
structure Agrees (told : List T2aStreamChunk) (stream : AudioStream) : Prop where
  finished : (∃ chunk ∈ told, chunk.Ends) → (∀ chunk ∈ told, ¬chunk.Fails ∧ ¬chunk.Rejected) → Finished told stream
  aborted : (∃ chunk ∈ told, chunk.Fails ∨ chunk.Rejected) ∨ (∀ chunk ∈ told, ¬chunk.Ends) → Aborted stream

/-- A chunk fails, or the chunks are ended and all of them decode, or the response is cut off before they are. -/
inductive Told (midway : Option String) (told : List T2aStreamChunk) : Prop where
  | failed (h : ∃ chunk ∈ told, chunk.Fails)
  | ended (hend : ∃ chunk ∈ told, chunk.Ends)
      (hdecode : ∀ chunk ∈ told, (decodeHex (audioHex chunk.data)).isSome = true)
  | cut (hopen : ∀ chunk ∈ told, ¬chunk.Ends) (hmidway : midway.isSome = true)

/-! Texts of digits. -/

theorem partOf_bytes (chunk : T2aStreamChunk) : (partOf chunk).bytes = (decodeHex (audioHex chunk.data)).getD [] := by
  rw [partOf]
  dsimp only
  split
  · next hempty => rw [hempty, decodeHex_empty, Option.getD_some]
  · rfl

theorem rejected_iff {chunk : T2aStreamChunk} : chunk.Rejected ↔ decodeHex (audioHex chunk.data) = none := by
  unfold T2aStreamChunk.Rejected parseT2aResponse
  dsimp only [baseError]
  cases hdecode : decodeHex (audioHex chunk.data) with
  | none => exact iff_of_true rfl rfl
  | some audio =>
    refine iff_of_false ?_ nofun
    cases audio with
    | nil => exact fun h => absurd (Except.error.inj h) (by decide)
    | cons b audio =>
      dsimp only
      split
      · split <;> exact nofun
      · exact nofun

/-- Texts that decode on their own decode behind one another. -/
theorem decodeHex_join {told : List T2aStreamChunk} {parts : List AudioPart}
    (h : List.Forall₂ (fun chunk part => decodeHex (audioHex chunk.data) = some part.bytes) told parts)
    (hspells : ∀ chunk ∈ told, ∃ bytes, Spells (audioHex chunk.data).toList bytes) :
    Spells (String.join (told.map fun chunk => audioHex chunk.data)).toList (parts.flatMap AudioPart.bytes) := by
  induction h with
  | nil => simp [Spells, encodeHex]
  | @cons chunk part told parts hpart _ ih =>
    obtain ⟨⟨bytes, hbytes⟩, hrest⟩ := List.forall_mem_cons.1 hspells
    obtain rfl := Option.some.inj (hbytes.decodeHex_eq.symm.trans hpart)
    rw [List.map_cons, String.join_cons, String.toList_append, List.flatMap_cons]
    exact hbytes.append (ih hrest)

/-! The stream by the chunks up to the end. -/

theorem upToEnd_before {chunks front back : List T2aStreamChunk} (h : upToEnd chunks = front ++ back)
    (hback : back ≠ []) : ∀ chunk ∈ front, ¬chunk.Ends := by
  induction chunks generalizing front with
  | nil => exact absurd (List.append_eq_nil_iff.1 h.symm).2 hback
  | cons chunk chunks ih =>
    rw [upToEnd] at h
    cases front with
    | nil => exact nofun
    | cons first front =>
      split at h
      · obtain ⟨-, hnil⟩ := List.cons.inj h
        exact absurd (List.append_eq_nil_iff.1 hnil.symm).2 hback
      · next hopen =>
        obtain ⟨rfl, hrest⟩ := List.cons.inj h
        exact List.forall_mem_cons.2 ⟨hopen, ih hrest⟩

/-- The chunk that ends the stream is the last. -/
theorem upToEnd_last {chunks : List T2aStreamChunk} (h : ∃ chunk ∈ upToEnd chunks, chunk.Ends) :
    ∃ front last, upToEnd chunks = front ++ [last] ∧ last.Ends ∧ ∀ chunk ∈ front, ¬chunk.Ends := by
  obtain ⟨last, hlast, hends⟩ := h
  obtain ⟨front, back, hsplit⟩ := List.append_of_mem hlast
  have hfront := upToEnd_before hsplit (List.cons_ne_nil _ _)
  cases back with
  | nil => exact ⟨front, last, hsplit, hends, hfront⟩
  | cons chunk back =>
    have hsplit' : upToEnd chunks = (front ++ [last]) ++ chunk :: back := by
      rw [hsplit, List.append_assoc]
      rfl
    have hbefore := upToEnd_before hsplit' (List.cons_ne_nil _ _)
    exact absurd hends (hbefore last (List.mem_append_right _ (List.mem_singleton_self _)))

section
variable {fromStr : String → Option T2aStreamChunk} {midway : Option String}

variable (fromStr midway) in
theorem streamPayloads_eq (payloads : List String) :
    let told := upToEnd (payloads.filterMap fromStr)
    streamPayloads fromStr midway payloads =
      ⟨(told.takeWhile fun chunk => (baseError chunk.baseResp).isNone).map partOf,
        (told.findSome? fun chunk => baseError chunk.baseResp).or
          (if told.any fun chunk => chunk.extraInfo.isSome then none else midway.map .streamMidway)⟩ := by
  induction payloads with
  | nil => rfl
  | cons payload payloads ih =>
    dsimp only at ih ⊢
    rw [streamPayloads, List.filterMap_cons]
    cases fromStr payload with
    | none => exact ih
    | some parsed =>
      dsimp only
      rw [upToEnd]
      by_cases hend : parsed.extraInfo.isSome = true
      · cases herror : baseError parsed.baseResp <;> simp [hend, herror]
      · cases herror : baseError parsed.baseResp <;> simp [hend, herror, ih, AudioStream.after]

/-- The payloads are those of the answer. -/
theorem synthesizeStream_eq {self : MinimaxTts} {response : Response} {stream : AudioStream}
    (h : self.synthesizeStream fromStr (.ok response) = .ok stream) :
    stream = streamPayloads fromStr response.midway (SseDataParser.new.pushAll response.chunks).2 := by
  obtain ⟨_ | key, _ | group⟩ := self
  · exact absurd h nofun
  · exact absurd h nofun
  · exact absurd h nofun
  · exact checkHttp_bind_ok h

/-- Without a failure all the chunks are heard. -/
theorem streamPayloads_sound {payloads : List String}
    (h : ∀ chunk ∈ upToEnd (payloads.filterMap fromStr), ¬chunk.Fails) :
    streamPayloads fromStr midway payloads = ⟨(upToEnd (payloads.filterMap fromStr)).map partOf,
      if (upToEnd (payloads.filterMap fromStr)).any fun chunk => chunk.extraInfo.isSome then none
      else midway.map .streamMidway⟩ := by
  have hnone : ∀ chunk ∈ upToEnd (payloads.filterMap fromStr), baseError chunk.baseResp = none := fun chunk hc =>
    Option.not_isSome_iff_eq_none.1 (h chunk hc)
  have heq := streamPayloads_eq fromStr midway payloads
  dsimp only at heq
  rw [heq, List.takeWhile_eq_self_iff.2 fun chunk hc => Option.isNone_iff_eq_none.2 (hnone chunk hc),
    List.findSome?_eq_none_iff.2 hnone, Option.none_or]

/-- The first failure ends the stream, before its end. -/
theorem streamPayloads_failed {payloads : List String}
    (h : ∃ chunk ∈ upToEnd (payloads.filterMap fromStr), chunk.Fails) :
    Aborted (streamPayloads fromStr midway payloads) := by
  have heq := streamPayloads_eq fromStr midway payloads
  dsimp only at heq
  obtain ⟨failing, hfailing, hfails⟩ := h
  constructor
  · have hsome : ((upToEnd (payloads.filterMap fromStr)).findSome? fun chunk => baseError chunk.baseResp).isSome :=
      List.findSome?_isSome_iff.2 ⟨failing, hfailing, hfails⟩
    rw [heq]
    exact Option.isSome_or.trans (Bool.or_eq_true_iff.2 (.inl hsome))
  · intro part hpart
    rw [heq] at hpart
    obtain ⟨chunk, hchunk, rfl⟩ := List.mem_map.1 hpart
    have hsplit := List.takeWhile_append_dropWhile (p := fun chunk : T2aStreamChunk =>
      (baseError chunk.baseResp).isNone) (l := upToEnd (payloads.filterMap fromStr))
    refine Bool.eq_false_iff.2 (upToEnd_before hsplit.symm ?_ chunk hchunk)
    rw [Ne, List.dropWhile_eq_nil_iff]
    intro hall
    have hclean := Option.isNone_iff_eq_none.1 (hall failing hfailing)
    rw [T2aStreamChunk.Fails, hclean] at hfails
    cases hfails

/-- Chunks that decode are the parts. -/
theorem forall₂_partOf {told : List T2aStreamChunk}
    (h : ∀ chunk ∈ told, (decodeHex (audioHex chunk.data)).isSome = true) :
    List.Forall₂ (fun chunk part => decodeHex (audioHex chunk.data) = some part.bytes) told (told.map partOf) := by
  rw [List.forall₂_map_right_iff, List.forall₂_same]
  intro chunk hc
  obtain ⟨bytes, hbytes⟩ := Option.isSome_iff_exists.1 (h chunk hc)
  rw [partOf_bytes, hbytes, Option.getD_some]

theorem finished {payloads : List String}
    (hclean : ∀ chunk ∈ upToEnd (payloads.filterMap fromStr), ¬chunk.Fails)
    (hend : ∃ chunk ∈ upToEnd (payloads.filterMap fromStr), chunk.Ends)
    (hdecode : ∀ chunk ∈ upToEnd (payloads.filterMap fromStr), (decodeHex (audioHex chunk.data)).isSome = true) :
    Finished (upToEnd (payloads.filterMap fromStr)) (streamPayloads fromStr midway payloads) := by
  have hpieces := forall₂_partOf hdecode
  rw [streamPayloads_sound hclean]
  refine ⟨if_pos (List.any_eq_true.2 hend), hpieces, fun hspells => (decodeHex_join hpieces hspells).decodeHex_eq, ?_⟩
  obtain ⟨front, last, hsplit, hlast, hfront⟩ := upToEnd_last hend
  refine ⟨front.map partOf, partOf last, by rw [hsplit, List.map_append]; rfl, hlast, fun part hpart => ?_⟩
  obtain ⟨chunk, hchunk, rfl⟩ := List.mem_map.1 hpart
  exact Bool.eq_false_iff.2 (hfront chunk hchunk)

/-- Without an end no part is the last one. -/
theorem notLast_of_open (midway : Option String) {payloads : List String}
    (hclean : ∀ chunk ∈ upToEnd (payloads.filterMap fromStr), ¬chunk.Fails)
    (hopen : ∀ chunk ∈ upToEnd (payloads.filterMap fromStr), ¬chunk.Ends) :
    (streamPayloads fromStr midway payloads).error = midway.map .streamMidway ∧
      ∀ part ∈ (streamPayloads fromStr midway payloads).parts, part.isLast = false := by
  rw [streamPayloads_sound hclean]
  refine ⟨if_neg ?_, fun part hpart => ?_⟩
  · rw [List.any_eq_true]
    rintro ⟨chunk, hchunk, hends⟩
    exact hopen chunk hchunk hends
  · obtain ⟨chunk, hchunk, rfl⟩ := List.mem_map.1 hpart
    exact Bool.eq_false_iff.2 (hopen chunk hchunk)

end

theorem streamPayloads_agrees_iff (fromStr : String → Option T2aStreamChunk) (midway : Option String)
    (payloads : List String) :
    Agrees (upToEnd (payloads.filterMap fromStr)) (streamPayloads fromStr midway payloads) ↔
      Told midway (upToEnd (payloads.filterMap fromStr)) := by
  by_cases hfailed : ∃ chunk ∈ upToEnd (payloads.filterMap fromStr), chunk.Fails
  · refine iff_of_true ⟨fun _ hclean => ?_, fun _ => streamPayloads_failed hfailed⟩ (.failed hfailed)
    obtain ⟨chunk, hchunk, hfails⟩ := hfailed
    exact absurd hfails (hclean chunk hchunk).1
  have hclean : ∀ chunk ∈ upToEnd (payloads.filterMap fromStr), ¬chunk.Fails := fun chunk hc hfails =>
    hfailed ⟨chunk, hc, hfails⟩
  by_cases hend : ∃ chunk ∈ upToEnd (payloads.filterMap fromStr), chunk.Ends
  · have herror : (streamPayloads fromStr midway payloads).error = none := by
      rw [streamPayloads_sound hclean]
      exact if_pos (List.any_eq_true.2 hend)
    constructor
    · intro h
      refine .ended hend fun chunk hchunk => ?_
      by_contra hnone
      have hrejected := rejected_iff.2 (Option.not_isSome_iff_eq_none.1 hnone)
      have haborted := (h.aborted (.inl ⟨chunk, hchunk, .inr hrejected⟩)).error
      rw [herror] at haborted
      cases haborted
    · intro h
      have hdecode : ∀ chunk ∈ upToEnd (payloads.filterMap fromStr),
          (decodeHex (audioHex chunk.data)).isSome = true := by
        cases h with
        | failed h => exact absurd h hfailed
        | ended _ hdecode => exact hdecode
        | cut hopen _ => exact absurd hend fun ⟨chunk, hchunk, hends⟩ => hopen chunk hchunk hends
      refine ⟨fun _ _ => finished hclean hend hdecode, ?_⟩
      rintro (⟨chunk, hchunk, hfails | hrejected⟩ | hopen)
      · exact absurd hfails (hclean chunk hchunk)
      · have hsome := hdecode chunk hchunk
        rw [rejected_iff.1 hrejected] at hsome
        cases hsome
      · exact absurd hend fun ⟨chunk, hchunk, hends⟩ => hopen chunk hchunk hends
  · have hopen : ∀ chunk ∈ upToEnd (payloads.filterMap fromStr), ¬chunk.Ends := fun chunk hc hends =>
      hend ⟨chunk, hc, hends⟩
    obtain ⟨herror, hparts⟩ := notLast_of_open midway hclean hopen
    constructor
    · intro h
      have haborted := (h.aborted (.inr hopen)).error
      rw [herror, Option.isSome_map] at haborted
      exact .cut hopen haborted
    · intro h
      refine ⟨fun hends => absurd hends hend, fun _ => ⟨?_, hparts⟩⟩
      rw [herror, Option.isSome_map]
      cases h with
      | failed h => exact absurd h hfailed
      | ended hends _ => exact absurd hends hend
      | cut _ hmidway => exact hmidway

/-- A chunk whose audio is not hexadecimal, and its payload. -/
def garbledChunk : T2aStreamChunk := ⟨some ⟨"zz", none⟩, some (.obj []), none⟩

def garbledPayload : String := "\x7b\"data\":\x7b\"audio\":\"zz\"\x7d,\"extra_info\":\x7b\x7d\x7d"

def openChunk : T2aStreamChunk := ⟨some ⟨"61", none⟩, none, none⟩

def openPayload : String := "\x7b\"data\":\x7b\"audio\":\"61\"\x7d\x7d"

def readsChunks (s : String) : Option T2aStreamChunk :=
  if s = garbledPayload then some garbledChunk else if s = openPayload then some openChunk else none

/-- Audio that is not hexadecimal is skipped, and a response without an end is taken as finished. -/
theorem streamed_without_error :
    (streamPayloads readsChunks none [garbledPayload] = ⟨[⟨[], true⟩], none⟩ ∧
      ¬Agrees (upToEnd ([garbledPayload].filterMap readsChunks))
        (streamPayloads readsChunks none [garbledPayload])) ∧
    streamPayloads readsChunks none [openPayload] = ⟨[⟨[97], false⟩], none⟩ ∧
      ¬Agrees (upToEnd ([openPayload].filterMap readsChunks)) (streamPayloads readsChunks none [openPayload]) := by
  have hgarbled : readsChunks garbledPayload = some garbledChunk := if_pos rfl
  have hopen : readsChunks openPayload = some openChunk := by
    rw [readsChunks, if_neg (by decide), if_pos rfl]
  have htoldGarbled : upToEnd ([garbledPayload].filterMap readsChunks) = [garbledChunk] := by
    rw [List.filterMap_cons_some hgarbled]
    rfl
  have htoldOpen : upToEnd ([openPayload].filterMap readsChunks) = [openChunk] := by
    rw [List.filterMap_cons_some hopen]
    rfl
  have hzz : decodeHex "zz" = none := by decide +kernel
  have ha : decodeHex "61" = some [97] := by decide +kernel
  have hskipped : streamPayloads readsChunks none [garbledPayload] = ⟨[⟨[], true⟩], none⟩ := by
    simp [streamPayloads, hgarbled, garbledChunk, baseError, partOf, audioHex, hzz]
  have hfinished : streamPayloads readsChunks none [openPayload] = ⟨[⟨[97], false⟩], none⟩ := by
    simp [streamPayloads, hopen, openChunk, baseError, partOf, audioHex, ha, AudioStream.after]
  rw [htoldGarbled, htoldOpen, hskipped, hfinished]
  refine ⟨⟨rfl, fun h => ?_⟩, rfl, fun h => ?_⟩
  · have hrejected : garbledChunk.Rejected := rejected_iff.2 hzz
    cases (h.aborted (.inl ⟨garbledChunk, List.mem_singleton_self _, .inr hrejected⟩)).error
  · have hnone : ∀ chunk ∈ [openChunk], ¬chunk.Ends := by
      simp [T2aStreamChunk.Ends, openChunk]
    cases (h.aborted (.inr hnone)).error

end Fusions.Ai.Minimax
