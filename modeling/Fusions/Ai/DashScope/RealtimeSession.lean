import Fusions.Library.Runs
import Fusions.Ai.DashScope.FunAsr

/-! A session of real-time Fun-ASR: the stream of events, which the caller polls, and the pump, a task of its own that
sends what the caller has to say. -/
namespace Fusions.Ai
open Fusions.Hetuflow Fusions.Library

inductive AudioEncoding where
  | pcmS16Le | pcmF32Le | g711Ulaw | g711Alaw | opus | webmOpus | wav | mp3 | aac | amr
  deriving DecidableEq, Repr

inductive DashScopeRegion where
  | beijing | singapore
  deriving DecidableEq, Repr

/-- What the caller says during a session: a frame of audio, or a new vocabulary. -/
inductive SttUplink where
  | audio (frame : List UInt8)
  | contextUpdate (items : List String)

namespace FunAsr

def funAsrModelPrefix : String := "fun-asr"

/-- A configuration with what of it only the start of a session looks at. -/
structure RealtimeConfig extends AudioStreamConfig where
  encoding : AudioEncoding
  channels : UInt16

/-- The timeouts are as they are printed. -/
structure FunAsrRealtime where
  region : DashScopeRegion
  model : String
  startTimeout : String
  idleTimeout : String

def validateModelForRegion (debugStr : String → String) (model : String) :
    DashScopeRegion → Except SpeechToTextError Unit
  | .singapore =>
    if startsWith model funAsrModelPrefix then .ok ()
    else .error (.configInvalid
      s!"region=singapore only serves the {funAsrModelPrefix}* model family, got {debugStr model}")
  | .beijing => .ok ()

def providerAudioFormat : AudioEncoding → Except SpeechToTextError String
  | .pcmS16Le => .ok "pcm"
  | .wav => .ok "wav"
  | .mp3 => .ok "mp3"
  | .aac => .ok "aac"
  | .amr => .ok "amr"
  | .opus => .ok "opus"
  | .pcmF32Le => .error (.configInvalid
      "fun-asr-realtime pcm means 16-bit signed LE; convert PcmF32Le before sending")
  | .webmOpus => .error (.configInvalid
      "fun-asr-realtime opus means raw Opus packets, not a WebM container; demux before sending")
  | .g711Ulaw | .g711Alaw => .error (.configInvalid "fun-asr-realtime does not accept g711 audio")

/-- What is checked before there is a stream. The result is the format of the audio. -/
def transcribeRealtime (debugStr : String → String) (client : FunAsrRealtime) (config : RealtimeConfig) :
    Except SpeechToTextError String := do
  if config.channels ≠ 1 then
    .error (.configInvalid s!"fun-asr-realtime accepts mono audio only, got channels={config.channels}")
  else if config.sampleRate = 0 then .error (.configInvalid "sample_rate must be non-zero")
  else
    validateModelForRegion debugStr client.model client.region
    validateContextItems config.contextItems
    validateProviderOptions config.providerOptions
    providerAudioFormat config.encoding

/-- How a connection can fail, with what is printed of it. -/
inductive ConnectError where
  | endpoint (endpoint error : String)
  | apiKey (error : String)
  | workspace (error : String)
  | timeout
  | http (status : UInt16) (printed error : String)
  | transport (error : String)

def connectError (startTimeout : String) : ConnectError → SpeechToTextError
  | .endpoint endpoint e => .other s!"invalid websocket endpoint {endpoint}: {e}"
  | .apiKey e => .auth s!"invalid api key header: {e}"
  | .workspace e => .configInvalid s!"invalid workspace: {e}"
  | .timeout => .timeout s!"dashscope websocket connect exceeded {startTimeout}"
  | .http status printed e =>
    if status = 401 ∨ status = 403 then .auth s!"dashscope handshake rejected: {printed}"
    else .network s!"dashscope websocket connect failed: {e}"
  | .transport e => .network s!"dashscope websocket connect failed: {e}"

/-- `ContinueTaskPayload` and `FinishTaskPayload`, which have the same shape. -/
structure TaskInput where
  context : List ContextItem
  deriving DecidableEq, Repr

/-- A message of the client. -/
inductive ClientFrame where
  | runTask (message : ClientMessage RunTaskPayload)
  | audio (frame : List UInt8)
  | task (message : ClientMessage TaskInput)

def continueTask (taskId : String) (context : List ContextItem) : ClientFrame :=
  .task ⟨⟨"continue-task", taskId, "duplex"⟩, ⟨context⟩⟩

def finishTask (taskId : String) : ClientFrame := .task ⟨⟨"finish-task", taskId, "duplex"⟩, ⟨[]⟩⟩

/-- What the pump sends of an item: nothing of an empty frame, nor of a vocabulary without words. -/
def uplinkFrame (taskId : String) : SttUplink → Option ClientFrame
  | .audio frame => if frame = [] then none else some (.audio frame)
  | .contextUpdate items =>
    let context := clampContext items
    if context = [] then none else some (continueTask taskId context)

def ClientFrame.context : ClientFrame → List ContextItem
  | .runTask message => message.payload.context
  | .audio _ => []
  | .task message => message.payload.context

/-- Where the pump stands: not spawned, at the next item, at the sending of a frame, or at its end. -/
inductive Pump where
  | waiting
  | pulling
  | sending (frame : ClientFrame)
  | failed (frame : ClientFrame) (error : String)
  | done
  | aborted (unsent : Option ClientFrame)

/-- The frame whose sending has not succeeded. -/
def Pump.unsent : Pump → Option ClientFrame
  | .sending frame | .failed frame _ => some frame
  | .aborted frame => frame
  | .waiting | .pulling | .done => none

/-- Where the stream stands: a phase that has ended waits for the pump. -/
inductive Stage where
  | connecting
  | connected
  | listening (phase : Phase)
  | closed

/-- A session, and all it has sent, yielded, pulled and read so far. -/
structure Realtime where
  format : String
  stage : Stage
  pump : Pump
  sent : List ClientFrame
  items : List Item
  pulled : List SttUplink
  exhausted : Bool
  reads : List Read

inductive Action where
  | connect (outcome : Option ConnectError)
  | sendRunTask (error : Option String)
  | read (read : Read)
  | spawn
  | pull (item : Option SttUplink)
  | send (error : Option String)
  /-- The pump has ended, or the five seconds are over. -/
  | drain
  /-- The caller drops the stream. -/
  | drop
  /-- A pump whose handle is dropped ends at its next wait. -/
  | abort

section
variable (serde : Serde) (client : FunAsrRealtime) (config : RealtimeConfig) (taskId : String)

def FunAsrRealtime.session : Session := ⟨taskId, client.model, client.startTimeout, client.idleTimeout⟩

namespace Realtime

/-- A stream that has not been polled. -/
def unpolled (format : String) : Realtime := ⟨format, .connecting, .waiting, [], [], [], false, []⟩

def runTask (s : Realtime) : ClientFrame :=
  .runTask (buildRunTask taskId client.model config.toAudioStreamConfig s.format)

/-- One read: an error closes the stream, and after the result it waits for the pump. -/
def onRead (s : Realtime) (phase : Phase) (read : Read) : Realtime :=
  let (phase, items) := step serde (client.session taskId) phase read
  { s with
    stage := if items.any isError then .closed else .listening phase
    items := s.items ++ items
    reads := s.reads ++ [read] }

/-- What the pump does with the next item of the caller, or at the end of them. -/
def onPull (s : Realtime) : Option SttUplink → Realtime
  | some item =>
    { s with
      pump := ((uplinkFrame taskId item).map .sending).getD .pulling
      pulled := s.pulled ++ [item] }
  | none => { s with pump := .sending (finishTask taskId), exhausted := true }

def next (s : Realtime) : Action → Option Realtime
  | .connect outcome =>
    match s.stage, outcome with
    | .connecting, none => some { s with stage := .connected }
    | .connecting, some e =>
      some { s with stage := .closed, items := s.items ++ [.error (connectError client.startTimeout e)] }
    | _, _ => none
  | .sendRunTask error =>
    match s.stage, error with
    | .connected, none =>
      some { s with stage := .listening .starting, sent := s.sent ++ [s.runTask client config taskId] }
    | .connected, some e =>
      some { s with stage := .closed, items := s.items ++ [.error (.network s!"send run-task: {e}")] }
    | _, _ => none
  | .read read =>
    match s.stage, s.pump with
    | .listening .starting, _ => some (s.onRead serde client taskId .starting read)
    | .listening (.recognising _), .waiting => none
    | .listening (.recognising acc), _ => some (s.onRead serde client taskId (.recognising acc) read)
    | _, _ => none
  | .spawn =>
    match s.stage, s.pump with
    | .listening (.recognising _), .waiting => some { s with pump := .pulling }
    | _, _ => none
  | .pull item =>
    match s.pump with
    | .pulling => some (s.onPull taskId item)
    | _ => none
  | .send error =>
    match s.pump, error with
    | .sending frame, none =>
      some { s with pump := if s.exhausted then .done else .pulling, sent := s.sent ++ [frame] }
    | .sending frame, some e => some { s with pump := .failed frame e }
    | _, _ => none
  | .drain =>
    match s.stage with
    | .listening .ended => some { s with stage := .closed }
    | _ => none
  | .drop => some { s with stage := .closed }
  | .abort =>
    match s.stage, s.pump with
    | .closed, .pulling => some { s with pump := .aborted none }
    | .closed, .sending frame => some { s with pump := .aborted (some frame) }
    | _, _ => none

/-- All that there is to send of what has been pulled. -/
def dialogue (s : Realtime) : List ClientFrame :=
  s.runTask client config taskId ::
    (s.pulled.filterMap (uplinkFrame taskId) ++ if s.exhausted then [finishTask taskId] else [])

end Realtime

/-- The sessions of an accepted configuration. -/
def realtime (debugStr : String → String) : System Realtime Action where
  init s := ∃ format, transcribeRealtime debugStr client config = .ok format ∧ s = .unpolled format
  step s action s' := s.next serde client config taskId action = some s'

end

/-- A frame within the limits of the provider: a context of few and short items, no blank item and no empty audio. -/
structure ClientFrame.Within (frame : ClientFrame) : Prop where
  context : frame.context.length ≤ maxContextItems
  items : ∀ item ∈ frame.context, item.text ≠ "" ∧ item.text.length ≤ maxContextItemChars
  audio : frame ≠ .audio []

theorem clampContext_text_ne {items : List String} {item : ContextItem} (h : item ∈ clampContext items) :
    item.text ≠ "" := by
  obtain ⟨s, hs, rfl⟩ := List.mem_map.1 h
  have hne : s ≠ "" := by simpa using (List.mem_filter.1 (List.mem_of_mem_drop hs)).2
  by_cases hlong : s.length > maxContextItemChars
  · rw [if_pos hlong]
    intro hempty
    have hlength := congrArg String.length hempty
    rw [String.length_ofList, List.length_take, String.length_toList, Nat.min_eq_left (Nat.le_of_lt hlong)] at hlength
    cases hlength
  · rwa [if_neg hlong]

theorem clampContext_within (items : List String) {frame : ClientFrame} (h : frame.context = clampContext items)
    (haudio : frame ≠ .audio []) : frame.Within where
  context := by
    rw [h]
    exact clampContext_length_le items
  items item hitem := by
    rw [h] at hitem
    exact ⟨clampContext_text_ne hitem, clampContext_text_length_le hitem⟩
  audio := haudio

theorem uplinkFrame_within {taskId : String} {item : SttUplink} {frame : ClientFrame}
    (h : uplinkFrame taskId item = some frame) : frame.Within := by
  cases item with
  | audio bytes =>
    by_cases hempty : bytes = []
    · rw [uplinkFrame, if_pos hempty] at h
      cases h
    · rw [uplinkFrame, if_neg hempty, Option.some.injEq] at h
      subst h
      exact ⟨Nat.zero_le _, by simp [ClientFrame.context], by simpa using hempty⟩
  | contextUpdate items =>
    by_cases hempty : clampContext items = []
    · simp [uplinkFrame, hempty] at h
    · simp only [uplinkFrame, hempty, if_false, Option.some.injEq] at h
      subst h
      exact clampContext_within items rfl (by simp [continueTask])

section
variable {serde : Serde} {client : FunAsrRealtime} {config : RealtimeConfig} {taskId : String}

theorem dialogue_within {s : Realtime} {frame : ClientFrame} (h : frame ∈ s.dialogue client config taskId) :
    frame.Within := by
  rcases List.mem_cons.1 h with rfl | h
  · exact clampContext_within config.contextItems rfl (by simp [Realtime.runTask])
  rcases List.mem_append.1 h with h | h
  · obtain ⟨item, -, hitem⟩ := List.mem_filterMap.1 h
    exact uplinkFrame_within hitem
  · split at h
    · rw [List.mem_singleton] at h
      subst h
      exact ⟨Nat.zero_le _, by simp [finishTask, ClientFrame.context], by simp [finishTask]⟩
    · cases h

theorem recognising_starts {reads : List Read} {acc : Accumulator} {session : Session}
    (h : (transcribe serde session reads).1 = .recognising acc) :
    ∃ rest, (transcribe serde session reads).2 = .ok (.started (some session.taskId)) :: rest := by
  rcases transcribe_courses serde session reads with
    hrun | ⟨e, hrun⟩ | ⟨-, ⟨acc, body, hrun⟩ | ⟨body, seen, hfinishes⟩ | ⟨body, e, hrun⟩⟩
  · rw [hrun] at h
    cases h
  · rw [hrun] at h
    cases h
  · exact ⟨_, congrArg Prod.snd hrun⟩
  · exact ⟨_, congrArg Prod.snd (transcribe_finishes hfinishes)⟩
  · exact ⟨_, congrArg Prod.snd hrun⟩

/-- A stream with a result has no error. -/
theorem result_no_error {reads : List Read} {result : TranscriptionResult} {session : Session}
    (h : .ok (.taskFinished result) ∈ (transcribe serde session reads).2) :
    ∀ item ∈ (transcribe serde session reads).2, isError item = false := by
  have hplain : ∀ {body : List Read}, .ok (.taskFinished result) ∉ (results serde body).map segmentItem :=
    fun hmem => absurd (segmentItem_plain hmem).2.1 (by simp [isTaskFinished])
  rcases transcribe_courses serde session reads with
    hrun | ⟨e, hrun⟩ | ⟨-, ⟨acc, body, hrun⟩ | ⟨body, seen, hfinishes⟩ | ⟨body, e, hrun⟩⟩
  · rw [hrun] at h
    cases h
  · rw [hrun] at h
    simp at h
  · rw [hrun] at h
    simp [hplain] at h
  · rw [transcribe_finishes hfinishes]
    refine List.forall_mem_cons.2 ⟨rfl, List.forall_mem_append.2 ⟨fun item hitem => (segmentItem_plain hitem).2.2, ?_⟩⟩
    exact List.forall_mem_singleton.2 rfl
  · rw [hrun] at h
    simp [hplain] at h

theorem transcribe_concat (session : Session) (reads : List Read) (read : Read) :
    transcribe serde session (reads ++ [read]) =
      ((step serde session (transcribe serde session reads).1 read).1,
        (transcribe serde session reads).2 ++ (step serde session (transcribe serde session reads).1 read).2) := by
  rw [transcribe, run_append, run_cons]
  simp only [run, List.append_nil]
  rfl

end

namespace Realtime
section
variable (serde : Serde) (client : FunAsrRealtime) (config : RealtimeConfig) (taskId : String)

/-- What a session has sent, against what its caller said, and what it has yielded, against what it read. The frames are
the task and then those of all that was pulled, in order, and the end once the caller's items are over: all but the one
whose sending has not succeeded. -/
structure Conforms (debugStr : String → String) (s : Realtime) : Prop where
  admitted : transcribeRealtime debugStr client config = .ok s.format
  waits : s.pump = .waiting → s.pulled = [] ∧ s.exhausted = false ∧ s.sent <+: [s.runTask client config taskId]
  follows : s.pump ≠ .waiting → s.sent ++ s.pump.unsent.toList = s.dialogue client config taskId
  starts : s.pump ≠ .waiting → ∃ rest, s.items = .ok (.started (some taskId)) :: rest
  ends : s.pump = .done ↔ s.exhausted = true ∧ s.pump.unsent = none
  within : ∀ frame ∈ s.sent, frame.Within
  yields : s.items = (transcribe serde (client.session taskId) s.reads).2 ∨
    (∃ e, s.items = [.error e]) ∧ s.reads = [] ∧ s.sent = []
  verdict : ∀ result, .ok (.taskFinished result) ∈ s.items → ∀ item ∈ s.items, isError item = false

/-- Where the stream stands in its reads. -/
inductive Stands (s : Realtime) : Stage → Prop where
  | connecting : s.items = [] → s.reads = [] → s.sent = [] → s.pump = .waiting → Stands s .connecting
  | connected : s.items = [] → s.reads = [] → s.sent = [] → s.pump = .waiting → Stands s .connected
  | listening {phase : Phase} : transcribe serde (client.session taskId) s.reads = (phase, s.items) →
      (s.pump = .waiting → s.sent = [s.runTask client config taskId]) → Stands s (.listening phase)
  | closed : s.items = (transcribe serde (client.session taskId) s.reads).2 →
      (s.pump = .waiting → s.sent <+: [s.runTask client config taskId]) → Stands s .closed
  | failed {e : SpeechToTextError} : s.items = [.error e] → s.reads = [] → s.sent = [] → s.pump = .waiting →
      Stands s .closed

/-- Where the pump stands in the dialogue. -/
structure Pumps (s : Realtime) : Prop where
  waits : s.pump = .waiting → s.pulled = [] ∧ s.exhausted = false
  follows : s.pump ≠ .waiting → s.sent ++ s.pump.unsent.toList = s.dialogue client config taskId
  starts : s.pump ≠ .waiting → ∃ rest, s.items = .ok (.started (some taskId)) :: rest
  ends : s.pump = .done ↔ s.exhausted = true ∧ s.pump.unsent = none

end

section
variable {serde : Serde} {client : FunAsrRealtime} {config : RealtimeConfig} {taskId : String} {s s' : Realtime}
  {stage : Stage}

/-- Once the pump is spawned, it does not matter to the stream what the pump does. -/
theorem Stands.pumped (h : Stands serde client config taskId s stage) (hpump : s.pump ≠ .waiting)
    (hpump' : s'.pump ≠ .waiting) (hitems : s'.items = s.items) (hreads : s'.reads = s.reads) :
    Stands serde client config taskId s' stage := by
  cases h with
  | connecting _ _ _ hwaiting | connected _ _ _ hwaiting | failed _ _ _ hwaiting => exact absurd hwaiting hpump
  | listening hrun => exact .listening (by rwa [hreads, hitems]) fun hwaiting => absurd hwaiting hpump'
  | closed hrun => exact .closed (by rwa [hreads, hitems]) fun hwaiting => absurd hwaiting hpump'

/-- A stream can be closed anywhere. -/
theorem Stands.drop (h : Stands serde client config taskId s stage) :
    Stands serde client config taskId { s with stage := .closed } .closed := by
  cases h with
  | connecting hitems hreads hsent | connected hitems hreads hsent =>
    exact .closed (by rw [hitems, hreads]; rfl) fun _ => by rw [hsent]; exact List.nil_prefix
  | listening hrun hsent =>
    exact .closed (by rw [hrun]) fun hwaiting => hsent hwaiting ▸ List.prefix_rfl
  | closed hitems hsent => exact .closed hitems hsent
  | failed hitems hreads hsent hwaiting => exact .failed hitems hreads hsent hwaiting

theorem Stands.onRead {phase : Phase} (h : Stands serde client config taskId s (.listening phase)) (read : Read) :
    Stands serde client config taskId (s.onRead serde client taskId phase read)
      (s.onRead serde client taskId phase read).stage := by
  cases h with
  | listening hrun hsent =>
    have hconcat : transcribe serde (client.session taskId) (s.reads ++ [read]) = _ := transcribe_concat _ _ _
    rw [hrun] at hconcat
    simp only [Realtime.onRead]
    split
    · refine .closed (congrArg Prod.snd hconcat).symm fun hwaiting => ?_
      exact hsent hwaiting ▸ List.prefix_rfl
    · exact .listening hconcat hsent

/-- What a step of the stream leaves of the pump. -/
theorem Pumps.streamed (h : Pumps client config taskId s) (hpump : s'.pump = s.pump) (hpulled : s'.pulled = s.pulled)
    (hexhausted : s'.exhausted = s.exhausted) (hsent : s.pump ≠ .waiting → s'.sent = s.sent)
    (hformat : s'.format = s.format) (hitems : s.items <+: s'.items) : Pumps client config taskId s' where
  waits hwaiting := by
    rw [hpulled, hexhausted]
    exact h.waits (hpump ▸ hwaiting)
  follows hne := by
    rw [hpump] at hne ⊢
    rw [hsent hne, h.follows hne, dialogue, dialogue, runTask, runTask, hpulled, hexhausted, hformat]
  starts hne := by
    obtain ⟨rest, hrest⟩ := h.starts (hpump ▸ hne)
    obtain ⟨more, hmore⟩ := hitems
    exact ⟨rest ++ more, by rw [← hmore, hrest, List.cons_append]⟩
  ends := by rw [hpump, hexhausted]; exact h.ends


theorem Pumps.spawn (h : Pumps client config taskId s) (hwaiting : s.pump = .waiting)
    (hsent : s.sent = [s.runTask client config taskId])
    (hitems : ∃ rest, s.items = .ok (.started (some taskId)) :: rest) :
    Pumps client config taskId { s with pump := .pulling } := by
  obtain ⟨hpulled, hexhausted⟩ := h.waits hwaiting
  refine ⟨fun hne => (by cases hne), fun _ => ?_, fun _ => hitems, ⟨fun hdone => (by cases hdone), fun hends => ?_⟩⟩
  · simp [hsent, Pump.unsent, dialogue, runTask, hpulled, hexhausted]
  · simp [hexhausted] at hends

/-- Before the caller's items are over, what is pulled next is sent next, if it makes a frame. -/
theorem Pumps.pull (h : Pumps client config taskId s) (hpump : s.pump = .pulling) (item : Option SttUplink) :
    Pumps client config taskId (s.onPull taskId item) := by
  have hfollows := h.follows (by simp [hpump])
  have hstarts := h.starts (by simp [hpump])
  have hexhausted : s.exhausted = false := by
    have hends := h.ends
    simpa [hpump, Pump.unsent] using hends
  simp only [hpump, Pump.unsent, Option.toList_none, List.append_nil, dialogue, hexhausted] at hfollows
  cases item with
  | none =>
    refine ⟨fun hwaiting => (by cases hwaiting), fun _ => ?_, fun _ => hstarts, ?_⟩
    · simp [Realtime.onPull, Pump.unsent, dialogue, runTask, hfollows]
    · simp [Realtime.onPull, Pump.unsent]
  | some item =>
    cases hframe : uplinkFrame taskId item with
    | none =>
      refine ⟨fun hwaiting => by simp [Realtime.onPull, hframe] at hwaiting, fun _ => ?_, fun _ => hstarts, ?_⟩
      · simp [Realtime.onPull, Pump.unsent, dialogue, runTask, hfollows, hframe, hexhausted]
      · simp [Realtime.onPull, Pump.unsent, hframe, hexhausted]
    | some frame =>
      refine ⟨fun hwaiting => by simp [Realtime.onPull, hframe] at hwaiting, fun _ => ?_, fun _ => hstarts, ?_⟩
      · simp [Realtime.onPull, Pump.unsent, dialogue, runTask, hfollows, hframe, hexhausted]
      · simp [Realtime.onPull, Pump.unsent, hframe]

theorem Pumps.sent {frame : ClientFrame} (h : Pumps client config taskId s) (hpump : s.pump = .sending frame) :
    Pumps client config taskId
      { s with pump := if s.exhausted then .done else .pulling, sent := s.sent ++ [frame] } := by
  have hfollows := h.follows (by simp [hpump])
  have hstarts := h.starts (by simp [hpump])
  rw [hpump] at hfollows
  cases hexhausted : s.exhausted with
  | true =>
    refine ⟨fun hwaiting => (by cases hwaiting), fun _ => ?_, fun _ => hstarts, by simp [Pump.unsent]⟩
    simpa [Pump.unsent, dialogue, runTask, hexhausted] using hfollows
  | false =>
    refine ⟨fun hwaiting => (by cases hwaiting), fun _ => ?_, fun _ => hstarts, by simp⟩
    simpa [Pump.unsent, dialogue, runTask, hexhausted] using hfollows

/-- A pump that ends early has the same frame unsent. -/
theorem Pumps.halt {pump : Pump} (h : Pumps client config taskId s) (hpump : s.pump ≠ .waiting)
    (hdone : s.pump ≠ .done) (hpump' : pump ≠ .waiting) (hdone' : pump ≠ .done)
    (hunsent : pump.unsent = s.pump.unsent) : Pumps client config taskId { s with pump := pump } where
  waits hwaiting := absurd hwaiting hpump'
  follows _ := by
    show s.sent ++ pump.unsent.toList = s.dialogue client config taskId
    rw [hunsent]
    exact h.follows hpump
  starts _ := h.starts hpump
  ends := by
    show pump = .done ↔ s.exhausted = true ∧ pump.unsent = none
    rw [hunsent, ← h.ends]
    exact ⟨fun hne => absurd hne hdone', fun hne => absurd hne hdone⟩

variable (serde client config taskId) in
theorem init_stands (format : String) :
    Stands serde client config taskId (unpolled format) (unpolled format).stage ∧
      Pumps client config taskId (unpolled format) := by
  refine ⟨.connecting rfl rfl rfl rfl, fun _ => ⟨rfl, rfl⟩, fun hne => absurd rfl hne, fun hne => absurd rfl hne, ?_⟩
  simp [unpolled]

/-- Each step keeps where the stream and the pump stand. -/
theorem next_stands {action : Action} (h : s.next serde client config taskId action = some s')
    (hstands : Stands serde client config taskId s s.stage) (hpumps : Pumps client config taskId s) :
    Stands serde client config taskId s' s'.stage ∧ Pumps client config taskId s' ∧ s'.format = s.format := by
  cases action with
  | connect outcome =>
    simp only [next] at h
    split at h
    · next hstage =>
      cases h
      rw [hstage] at hstands
      cases hstands with
      | connecting hitems hreads hsent hwaiting =>
        exact ⟨.connected hitems hreads hsent hwaiting,
          hpumps.streamed rfl rfl rfl (fun _ => rfl) rfl List.prefix_rfl, rfl⟩
    · next hstage =>
      cases h
      rw [hstage] at hstands
      cases hstands with
      | connecting hitems hreads hsent hwaiting =>
        exact ⟨.failed (by rw [hitems]; rfl) hreads hsent hwaiting,
          hpumps.streamed rfl rfl rfl (fun _ => rfl) rfl (List.prefix_append _ _), rfl⟩
    · cases h
  | sendRunTask error =>
    simp only [next] at h
    split at h
    · next hstage =>
      cases h
      rw [hstage] at hstands
      cases hstands with
      | connected hitems hreads hsent hwaiting =>
        refine ⟨.listening ?_ fun _ => by rw [hsent]; rfl,
          hpumps.streamed rfl rfl rfl (fun hne => absurd hwaiting hne) rfl List.prefix_rfl, rfl⟩
        rw [hitems, hreads]
        rfl
    · next hstage =>
      cases h
      rw [hstage] at hstands
      cases hstands with
      | connected hitems hreads hsent hwaiting =>
        exact ⟨.failed (by rw [hitems]; rfl) hreads hsent hwaiting,
          hpumps.streamed rfl rfl rfl (fun _ => rfl) rfl (List.prefix_append _ _), rfl⟩
    · cases h
  | read read =>
    simp only [next] at h
    split at h
    · next hstage =>
      cases h
      rw [hstage] at hstands
      exact ⟨hstands.onRead read, hpumps.streamed rfl rfl rfl (fun _ => rfl) rfl (List.prefix_append _ _), rfl⟩
    · cases h
    · next hstage _ =>
      cases h
      rw [hstage] at hstands
      exact ⟨hstands.onRead read, hpumps.streamed rfl rfl rfl (fun _ => rfl) rfl (List.prefix_append _ _), rfl⟩
    · cases h
  | spawn =>
    simp only [next] at h
    split at h
    · next hstage hwaiting =>
      cases h
      rw [hstage] at hstands
      cases hstands with
      | listening hrun hsent =>
        have hstarts := recognising_starts (congrArg Prod.fst hrun)
        rw [hrun] at hstarts
        refine ⟨?_, hpumps.spawn hwaiting (hsent hwaiting) hstarts, rfl⟩
        show Stands serde client config taskId _ s.stage
        rw [hstage]
        exact .listening hrun fun hne => by cases hne
    · cases h
  | pull item =>
    simp only [next] at h
    split at h
    · next hpump =>
      cases h
      have hnot : s.pump ≠ .waiting := by simp [hpump]
      have hpull := hpumps.pull hpump item
      cases item with
      | none => exact ⟨hstands.pumped hnot (fun hne => by cases hne) rfl rfl, hpull, rfl⟩
      | some item =>
        refine ⟨hstands.pumped hnot ?_ rfl rfl, hpull, rfl⟩
        cases hframe : uplinkFrame taskId item <;> simp [Realtime.onPull, hframe]
    · cases h
  | send error =>
    simp only [next] at h
    split at h
    · next hpump =>
      cases h
      refine ⟨hstands.pumped (by simp [hpump]) ?_ rfl rfl, hpumps.sent hpump, rfl⟩
      cases s.exhausted <;> simp
    · next hpump =>
      cases h
      exact ⟨hstands.pumped (by simp [hpump]) (fun hne => by cases hne) rfl rfl,
        hpumps.halt (by simp [hpump]) (by simp [hpump]) (by simp) (by simp) (by rw [hpump]; rfl), rfl⟩
    · cases h
  | drain =>
    simp only [next] at h
    split at h
    · cases h
      exact ⟨hstands.drop, hpumps.streamed rfl rfl rfl (fun _ => rfl) rfl List.prefix_rfl, rfl⟩
    · cases h
  | drop =>
    cases h
    exact ⟨hstands.drop, hpumps.streamed rfl rfl rfl (fun _ => rfl) rfl List.prefix_rfl, rfl⟩
  | abort =>
    simp only [next] at h
    split at h
    · next hpump =>
      cases h
      exact ⟨hstands.pumped (by simp [hpump]) (fun hne => by cases hne) rfl rfl,
        hpumps.halt (by simp [hpump]) (by simp [hpump]) (by simp) (by simp) (by rw [hpump]; rfl), rfl⟩
    · next hpump =>
      cases h
      exact ⟨hstands.pumped (by simp [hpump]) (fun hne => by cases hne) rfl rfl,
        hpumps.halt (by simp [hpump]) (by simp [hpump]) (by simp) (by simp) (by rw [hpump]; rfl), rfl⟩
    · cases h


theorem Stands.sent (h : Stands serde client config taskId s stage) (hwaiting : s.pump = .waiting) :
    s.sent <+: [s.runTask client config taskId] := by
  cases h with
  | connecting _ _ hsent | connected _ _ hsent | failed _ _ hsent =>
    rw [hsent]
    exact List.nil_prefix
  | listening _ hsent =>
    exact hsent hwaiting ▸ List.prefix_rfl
  | closed _ hsent => exact hsent hwaiting

theorem Stands.yields (h : Stands serde client config taskId s stage) :
    s.items = (transcribe serde (client.session taskId) s.reads).2 ∨
      (∃ e, s.items = [.error e]) ∧ s.reads = [] ∧ s.sent = [] := by
  cases h with
  | connecting hitems hreads | connected hitems hreads =>
    rw [hitems, hreads]
    exact .inl rfl
  | listening hrun => exact .inl (by rw [hrun])
  | closed hitems => exact .inl hitems
  | failed hitems hreads hsent => exact .inr ⟨⟨_, hitems⟩, hreads, hsent⟩

end
end Realtime

section
variable {serde : Serde} {client : FunAsrRealtime} {config : RealtimeConfig} {taskId : String}
  {debugStr : String → String} {s : Realtime}

theorem realtime_stands (h : (realtime serde client config taskId debugStr).Reachable s) :
    Realtime.Stands serde client config taskId s s.stage ∧ Realtime.Pumps client config taskId s ∧
      transcribeRealtime debugStr client config = .ok s.format := by
  refine h.invariant (P := fun s => Realtime.Stands serde client config taskId s s.stage ∧
    Realtime.Pumps client config taskId s ∧ transcribeRealtime debugStr client config = .ok s.format) ?_ ?_
  · rintro _ ⟨format, hadmitted, rfl⟩
    obtain ⟨hstands, hpumps⟩ := Realtime.init_stands serde client config taskId format
    exact ⟨hstands, hpumps, hadmitted⟩
  · rintro s action s' - ⟨hstands, hpumps, hadmitted⟩ hstep -
    obtain ⟨hstands', hpumps', hformat⟩ := Realtime.next_stands hstep hstands hpumps
    exact ⟨hstands', hpumps', by rw [hformat, hadmitted]⟩

/-- Whatever the order of the polls, the pump's sends, the server's frames and the failures, a session sends what its
caller says, in order and within the limits, and the pump neither starts before the task has nor spoils its result. -/
theorem session_conforms (h : (realtime serde client config taskId debugStr).Reachable s) :
    s.Conforms serde client config taskId debugStr := by
  obtain ⟨hstands, hpumps, hadmitted⟩ := realtime_stands h
  refine ⟨hadmitted, fun hwaiting => ?_, hpumps.follows, hpumps.starts, hpumps.ends, fun frame hframe => ?_,
    hstands.yields, fun result hresult => ?_⟩
  · obtain ⟨hpulled, hexhausted⟩ := hpumps.waits hwaiting
    exact ⟨hpulled, hexhausted, hstands.sent hwaiting⟩
  · by_cases hwaiting : s.pump = .waiting
    · have hopening := List.mem_singleton.1 ((hstands.sent hwaiting).subset hframe)
      exact dialogue_within (s := s) (List.mem_cons.2 (.inl hopening))
    · exact dialogue_within (s := s) (hpumps.follows hwaiting ▸ List.mem_append_left _ hframe)
  · rcases hstands.yields with hitems | ⟨⟨e, hitems⟩, -, -⟩
    · rw [hitems] at hresult ⊢
      exact result_no_error hresult
    · rw [hitems] at hresult
      simp at hresult

end

def mono16k : RealtimeConfig where
  sampleRate := 16000
  languageHints := ["zh"]
  vocabularyIds := []
  contextItems := []
  domainHint := none
  providerOptions := .null
  nodup map h := by cases h
  encoding := .pcmS16Le
  channels := 1

def beijing : FunAsrRealtime := ⟨.beijing, "fun-asr-realtime", "10s", "30s"⟩

/-- The texts of a server that writes only the names of its events. -/
def naming : Serde where
  serverMessage t := .ok ⟨⟨t, none, none⟩, .obj []⟩
  resultGenerated _ := .error "missing field sentence at line 0 column 0"
  resultUsage _ := none
  taskFinished _ := none

/-- A session whose last message fails after the server has given the result. -/
def lateFailure : List Action :=
  [.connect none, .sendRunTask none, .read (.message .ping), .read (.message (.text "task-started")), .spawn,
    .pull (some (.audio [1, 2])), .send none, .pull (some (.contextUpdate [" "])), .pull none,
    .read (.message (.text "task-finished")), .send (some "connection reset"), .drain]

theorem session_conforms_late_failure : ∃ (s : Realtime) (error : String),
    s.Conforms naming beijing mono16k "task-1" id ∧ s.pump = .failed (finishTask "task-1") error ∧
      s.sent.length = 2 ∧ s.items.length = 2 := by
  have hadmitted : transcribeRealtime id beijing mono16k = .ok "pcm" := by decide +kernel
  have hplay : ∃ (s : Realtime) (error : String),
      System.play (Realtime.next naming beijing mono16k "task-1") (fun _ _ => True) (.unpolled "pcm") lateFailure =
        some s ∧ s.pump = .failed (finishTask "task-1") error ∧ s.sent.length = 2 ∧ s.items.length = 2 :=
    ⟨_, _, rfl, rfl, rfl, rfl⟩
  obtain ⟨s, error, hs, hpump, hsent, hitems⟩ := hplay
  have hinit : (realtime naming beijing mono16k "task-1" id).Reachable (.unpolled "pcm") :=
    .init ⟨"pcm", hadmitted, rfl⟩
  exact ⟨s, error, session_conforms (System.ReachableIf.play (fun _ _ _ hnext => hnext) hinit hs), hpump, hsent, hitems⟩

end FunAsr
end Fusions.Ai
