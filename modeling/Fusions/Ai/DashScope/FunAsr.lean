import Fusions.Ai.DashScope.RunTask

/-! The event stream of real-time Fun-ASR: from the frames of the server to the events and the transcript. -/
namespace Fusions.Ai
open Fusions.Hetuflow

structure TranscriptWord where
  text : String
  beginMs : Option UInt64
  endMs : Option UInt64
  punctuation : Option String

structure TranscriptSegment where
  text : String
  beginMs : Option UInt64
  endMs : Option UInt64
  confidence : Option Float32
  words : List TranscriptWord
  isFinal : Bool

structure TranscriptionResult where
  text : String
  language : Option String
  confidence : Option Float32
  segments : List TranscriptSegment
  provider : String
  model : String
  providerSessionId : Option String
  audioDurationMs : Option UInt64

inductive SttEvent where
  | started (providerSessionId : Option String)
  /-- `Partial`. -/
  | interim (segment : TranscriptSegment)
  | segmentFinal (segment : TranscriptSegment)
  | taskFinished (result : TranscriptionResult)

namespace FunAsr

def providerName : String := "fun_asr_realtime"

structure ServerHeader where
  event : String
  errorCode : Option String
  errorMessage : Option String

structure ServerMessage where
  header : ServerHeader
  payload : Json

structure ResultWord where
  beginTime : Option UInt64
  endTime : Option UInt64
  text : String
  punctuation : Option String

structure ResultSentence where
  beginTime : Option UInt64
  endTime : Option UInt64
  text : String
  sentenceEnd : Bool
  confidence : Option Float32
  words : List ResultWord

structure ResultGeneratedPayload where
  sentence : ResultSentence
  usage : Json

/-- The duration is in seconds. -/
structure ResultUsage where
  duration : Option Float

structure TaskFinishedPayload where
  usage : Option ResultUsage

/-- What `serde_json` reads from a text and from values. An error is its kind and its place, and no value. -/
structure Serde where
  serverMessage : String → Except String ServerMessage
  resultGenerated : Json → Except String ResultGeneratedPayload
  resultUsage : Json → Option ResultUsage
  taskFinished : Json → Option TaskFinishedPayload

structure CloseFrame where
  code : UInt16
  reason : String

/-- A message of the websocket, with what is read of it. -/
inductive Message where
  | text (t : String)
  | binary
  | ping
  | pong
  | frame
  | close (frame : Option CloseFrame)

inductive ParsedEvent where
  | started
  | resultGenerated (segment : TranscriptSegment) (durationMs : Option UInt64)
  | finished (durationMs : Option UInt64)
  | failed (code message : String)

def ParsedEvent.kindName : ParsedEvent → String
  | .started => "task-started"
  | .resultGenerated .. => "result-generated"
  | .finished _ => "task-finished"
  | .failed .. => "task-failed"

def usageDurationMs (usage : Option ResultUsage) : Option UInt64 :=
  ((usage.bind (·.duration)).filter fun secs => secs.isFinite && decide (0 ≤ secs)).map fun secs =>
    (secs * 1000).round.toUInt64

/-- `code.starts_with`. -/
def startsWith (code start : String) : Bool := start.toList.isPrefixOf code.toList

def isProviderRetryable (code : String) : Bool :=
  startsWith code "Throttling" || startsWith code "Network." || startsWith code "InternalError" ||
    code == "RequestTimeout" || code == "ServiceUnavailable"

/-- One frame of the server: an event, or none for a frame that is ignored. -/
def parseServerEvent (serde : Serde) : Message → Except SpeechToTextError (Option ParsedEvent)
  | .binary => .error (.protocol "unexpected binary frame from server")
  | .ping | .pong | .frame => .ok none
  | .close frame =>
    let reason := (frame.map fun f => s!"{f.code} {f.reason}").getD ""
    .error (.network s!"websocket closed: {reason}")
  | .text t => do
    let parsed ← (serde.serverMessage t).mapError fun e =>
      .protocol s!"parse {providerName} server message failed: {e}"
    match parsed.header.event with
    | "task-started" => return some .started
    | "result-generated" =>
      let payload ← (serde.resultGenerated parsed.payload).mapError fun e =>
        .protocol s!"parse result-generated payload: {e}"
      let sentence := payload.sentence
      let segment : TranscriptSegment := {
        text := sentence.text
        beginMs := sentence.beginTime
        endMs := sentence.endTime
        confidence := sentence.confidence
        words := sentence.words.map fun w => ⟨w.text, w.beginTime, w.endTime, w.punctuation⟩
        isFinal := sentence.sentenceEnd }
      return some (.resultGenerated segment (usageDurationMs (serde.resultUsage payload.usage)))
    | "task-finished" =>
      return some (.finished ((serde.taskFinished parsed.payload).bind fun p => usageDurationMs p.usage))
    | "task-failed" =>
      return some (.failed (parsed.header.errorCode.getD "UNKNOWN") (parsed.header.errorMessage.getD ""))
    | _ => return none

/-- What waiting for the next frame gives. -/
inductive Read where
  | timeout
  | closed
  | failed (error : String)
  | message (msg : Message)

/-- A stream: its task, and the limits as they are printed. -/
structure Session where
  taskId : String
  model : String
  startTimeout : String
  idleTimeout : String

abbrev Item := Except SpeechToTextError SttEvent

structure Accumulator where
  allSegments : List TranscriptSegment
  partialIdx : Option Nat
  durationMs : Option UInt64

namespace Accumulator

def init : Accumulator := ⟨[], none, none⟩

/-- The segments but for the one that is not final. -/
def kept (acc : Accumulator) : List TranscriptSegment :=
  match acc.partialIdx with
  | some i => acc.allSegments.take i
  | none => acc.allSegments

def longest (acc : Accumulator) : Option UInt64 → Option UInt64
  | some seen => some ((acc.durationMs.map fun cur => max cur seen).getD seen)
  | none => acc.durationMs

def add (acc : Accumulator) (segment : TranscriptSegment) (seen : Option UInt64) : Accumulator :=
  if segment.isFinal then ⟨acc.kept ++ [segment], none, acc.longest seen⟩
  else ⟨acc.kept ++ [segment], some acc.kept.length, acc.longest seen⟩

def result (acc : Accumulator) (session : Session) (seen : Option UInt64) : TranscriptionResult where
  text := String.join (acc.allSegments.map (·.text))
  language := none
  confidence := none
  segments := acc.allSegments
  provider := providerName
  model := session.model
  providerSessionId := some session.taskId
  audioDurationMs := if seen.isSome then seen else acc.durationMs

end Accumulator

/-- Where the stream stands: before the task has started, in the loop with its variables, or at its end. -/
inductive Phase where
  | starting
  | recognising (acc : Accumulator)
  | ended

section
variable (serde : Serde) (session : Session)

def failedWith (code message : String) : SpeechToTextError :=
  .provider providerName code message (isProviderRetryable code)

def startFrame : Read → Except SpeechToTextError (Option ParsedEvent)
  | .timeout => .error (.timeout s!"waiting task-started for {session.startTimeout}")
  | .closed => .error (.protocol "websocket closed before task-started")
  | .failed e => .error (.network s!"websocket error before task-started: {e}")
  | .message msg => parseServerEvent serde msg

def nextFrame : Read → Except SpeechToTextError (Option ParsedEvent)
  | .timeout => .error (.timeout s!"no frame from dashscope for {session.idleTimeout}")
  | .closed => .error (.network "websocket closed before task-finished")
  | .failed e => .error (.network s!"websocket error during recognition: {e}")
  | .message msg => parseServerEvent serde msg

def onStart : Option ParsedEvent → Phase × List Item
  | none => (.starting, [])
  | some .started => (.recognising .init, [.ok (.started (some session.taskId))])
  | some (.failed code message) => (.ended, [.error (failedWith code message)])
  | some other => (.ended, [.error (.protocol s!"expected task-started, got {other.kindName}")])

def onEvent (acc : Accumulator) : Option ParsedEvent → Phase × List Item
  | none | some .started => (.recognising acc, [])
  | some (.resultGenerated segment seen) =>
    (.recognising (acc.add segment seen), [.ok (if segment.isFinal then .segmentFinal segment else .interim segment)])
  | some (.finished seen) => (.ended, [.ok (.taskFinished (acc.result session seen))])
  | some (.failed code message) => (.ended, [.error (failedWith code message)])

/-- What one read does, and the items that it makes the stream yield. An error ends the stream. -/
def step : Phase → Read → Phase × List Item
  | .starting, read =>
    match startFrame serde session read with
    | .ok event => onStart session event
    | .error e => (.ended, [.error e])
  | .recognising acc, read =>
    match nextFrame serde session read with
    | .ok event => onEvent session acc event
    | .error e => (.ended, [.error e])
  | .ended, _ => (.ended, [])

def run : Phase → List Read → Phase × List Item
  | phase, [] => (phase, [])
  | phase, read :: reads =>
    let (next, items) := step serde session phase read
    let (last, rest) := run next reads
    (last, items ++ rest)

/-- The stream over a list of reads. -/
def transcribe (reads : List Read) : Phase × List Item := run serde session .starting reads

/-- The event of a read, which is the same in both loops; none if the read ends the stream. -/
def eventOf : Read → Option (Option ParsedEvent)
  | .message msg => (parseServerEvent serde msg).toOption
  | _ => none

def Ignorable (read : Read) : Prop := eventOf serde read = some none

/-- A read that the recognition goes on after. -/
def Continues (read : Read) : Prop :=
  eventOf serde read = some none ∨ eventOf serde read = some (some .started) ∨
    ∃ segment seen, eventOf serde read = some (some (.resultGenerated segment seen))

def resultOf (read : Read) : Option (TranscriptSegment × Option UInt64) :=
  match eventOf serde read with
  | some (some (.resultGenerated segment seen)) => some (segment, seen)
  | _ => none

/-- The segments that are recognised, each with the duration so far. -/
def results (reads : List Read) : List (TranscriptSegment × Option UInt64) := reads.filterMap (resultOf serde)

/-- The first frame that is not ignored says that the task has started. -/
def Starts (reads : List Read) : Prop :=
  ∃ quiet start after, reads = quiet ++ start :: after ∧ (∀ read ∈ quiet, Ignorable serde read) ∧
    eventOf serde start = some (some .started)

/-- The task starts, and after the reads of its body it is said to be finished, with the duration seen or none. -/
def Finishes (reads body : List Read) (seen : Option UInt64) : Prop :=
  ∃ quiet start last after, reads = quiet ++ start :: (body ++ last :: after) ∧
    (∀ read ∈ quiet, Ignorable serde read) ∧ eventOf serde start = some (some .started) ∧
    (∀ read ∈ body, Continues serde read) ∧ eventOf serde last = some (some (.finished seen))

end

/-- All final segments, and then the last segment if it is not final. -/
def transcript (segments : List TranscriptSegment) : List TranscriptSegment :=
  segments.filter (·.isFinal) ++ segments.getLast?.toList.filter (!·.isFinal)

def isStarted : Item → Bool
  | .ok (.started _) => true
  | _ => false

def isTaskFinished : Item → Bool
  | .ok (.taskFinished _) => true
  | _ => false

def isError : Item → Bool
  | .error _ => true
  | _ => false

/-- The item of a segment. -/
def segmentItem (result : TranscriptSegment × Option UInt64) : Item :=
  .ok (if result.1.isFinal then .segmentFinal result.1 else .interim result.1)

namespace Accumulator

def addAll (acc : Accumulator) (results : List (TranscriptSegment × Option UInt64)) : Accumulator :=
  results.foldl (fun acc result => acc.add result.1 result.2) acc

/-- The variables of the loop after some results: the transcript, where its last part begins if that is not final, and
the greatest duration. -/
structure Represents (acc : Accumulator) (results : List (TranscriptSegment × Option UInt64)) : Prop where
  segments : acc.allSegments = transcript (results.map Prod.fst)
  partialIdx : acc.partialIdx = ((results.map Prod.fst).getLast?.filter (!·.isFinal)).map fun _ =>
    ((results.map Prod.fst).filter (·.isFinal)).length
  duration : acc.durationMs = (results.filterMap Prod.snd).max?

theorem init_represents : init.Represents [] := ⟨rfl, rfl, rfl⟩

variable {acc : Accumulator} {results : List (TranscriptSegment × Option UInt64)}

theorem max?_concat (durations : List UInt64) (seen : UInt64) :
    (durations ++ [seen]).max? = some ((durations.max?.map fun cur => max cur seen).getD seen) := by
  cases durations with
  | nil => rfl
  | cons first rest => rw [List.cons_append, List.max?_cons', List.max?_cons', List.foldl_append]; rfl

/-- Cutting at the index leaves the final segments. -/
theorem Represents.kept (h : acc.Represents results) : acc.kept = (results.map Prod.fst).filter (·.isFinal) := by
  rw [Accumulator.kept, h.partialIdx, h.segments, transcript]
  cases hlast : (results.map Prod.fst).getLast? with
  | none => simp
  | some segment =>
    cases hfinal : segment.isFinal with
    | true => rw [Option.filter_some_neg (by simp [hfinal])]; simp [hfinal]
    | false => rw [Option.filter_some_pos (by simp [hfinal])]; simp

theorem Represents.longest (h : acc.Represents results) (segment : TranscriptSegment) (seen : Option UInt64) :
    acc.longest seen = ((results ++ [(segment, seen)]).filterMap Prod.snd).max? := by
  rw [List.filterMap_append]
  cases seen with
  | none => simp [Accumulator.longest, h.duration]
  | some seen =>
    rw [Accumulator.longest, h.duration]
    exact (max?_concat _ seen).symm

theorem Represents.add (h : acc.Represents results) (segment : TranscriptSegment) (seen : Option UInt64) :
    (acc.add segment seen).Represents (results ++ [(segment, seen)]) := by
  have hmap : (results ++ [(segment, seen)]).map Prod.fst = results.map Prod.fst ++ [segment] := List.map_append
  have hlongest := h.longest segment seen
  cases hfinal : segment.isFinal with
  | true =>
    rw [Accumulator.add, if_pos hfinal]
    exact ⟨by simp [hmap, transcript, h.kept, hfinal], by simp [hmap, Option.filter_some, hfinal], hlongest⟩
  | false =>
    rw [Accumulator.add, if_neg (by simp [hfinal])]
    exact ⟨by simp [hmap, transcript, h.kept, hfinal], by simp [hmap, h.kept, Option.filter_some, hfinal], hlongest⟩

theorem Represents.addAll (h : acc.Represents results) (more : List (TranscriptSegment × Option UInt64)) :
    (acc.addAll more).Represents (results ++ more) := by
  induction more generalizing acc results with
  | nil => rwa [List.append_nil]
  | cons result more ih =>
    have hadd := ih (h.add result.1 result.2)
    rwa [List.append_assoc, List.singleton_append] at hadd

end Accumulator

section
variable (serde : Serde) (session : Session) {read : Read}

theorem step_starting {event : Option ParsedEvent} (h : eventOf serde read = some event) :
    step serde session .starting read = onStart session event := by
  cases read with
  | message msg =>
    have hparse : parseServerEvent serde msg = .ok event := by
      cases hparse : parseServerEvent serde msg <;> simp_all [eventOf, Except.toOption]
    rw [step, startFrame, hparse]
  | timeout | closed | failed => cases h

theorem step_recognising {event : Option ParsedEvent} (h : eventOf serde read = some event) (acc : Accumulator) :
    step serde session (.recognising acc) read = onEvent session acc event := by
  cases read with
  | message msg =>
    have hparse : parseServerEvent serde msg = .ok event := by
      cases hparse : parseServerEvent serde msg <;> simp_all [eventOf, Except.toOption]
    rw [step, nextFrame, hparse]
  | timeout | closed | failed => cases h

/-- A read without an event ends the stream with an error, unless it has ended. -/
theorem step_of_no_event (h : eventOf serde read = none) {phase : Phase} (hphase : phase ≠ .ended) :
    ∃ e, step serde session phase read = (.ended, [.error e]) := by
  have hstart : ∃ e, startFrame serde session read = .error e := by
    cases read with
    | message msg => cases hparse : parseServerEvent serde msg <;> simp_all [eventOf, startFrame, Except.toOption]
    | timeout | closed | failed => exact ⟨_, rfl⟩
  have hnext : ∃ e, nextFrame serde session read = .error e := by
    cases read with
    | message msg => cases hparse : parseServerEvent serde msg <;> simp_all [eventOf, nextFrame, Except.toOption]
    | timeout | closed | failed => exact ⟨_, rfl⟩
  cases phase with
  | starting =>
    obtain ⟨e, he⟩ := hstart
    exact ⟨e, by rw [step, he]⟩
  | recognising acc =>
    obtain ⟨e, he⟩ := hnext
    exact ⟨e, by rw [step, he]⟩
  | ended => exact absurd rfl hphase

/-- Any other frame than a start is refused. -/
theorem step_refuses (hquiet : ¬ Ignorable serde read) (hstart : eventOf serde read ≠ some (some .started)) :
    ∃ e, step serde session .starting read = (.ended, [.error e]) := by
  cases hevent : eventOf serde read with
  | none => exact step_of_no_event serde session hevent (by simp)
  | some event =>
    rw [step_starting serde session hevent]
    cases event with
    | none => exact absurd hevent hquiet
    | some event =>
      cases event with
      | started => exact absurd hevent hstart
      | failed | resultGenerated | finished => exact ⟨_, rfl⟩

/-- A frame that neither goes on nor finishes breaks the recognition off. -/
theorem step_breaks (hgoes : ¬ Continues serde read)
    (hfinished : ∀ seen, eventOf serde read ≠ some (some (.finished seen)))
    (acc : Accumulator) : ∃ e, step serde session (.recognising acc) read = (.ended, [.error e]) := by
  cases hevent : eventOf serde read with
  | none => exact step_of_no_event serde session hevent (by simp)
  | some event =>
    rw [step_recognising serde session hevent]
    cases event with
    | none => exact absurd (.inl hevent) hgoes
    | some event =>
      cases event with
      | started => exact absurd (.inr (.inl hevent)) hgoes
      | resultGenerated segment seen => exact absurd (.inr (.inr ⟨segment, seen, hevent⟩)) hgoes
      | finished seen => exact absurd hevent (hfinished seen)
      | failed => exact ⟨_, rfl⟩

theorem run_cons (phase : Phase) (read : Read) (reads : List Read) : run serde session phase (read :: reads) =
    ((run serde session (step serde session phase read).1 reads).1,
      (step serde session phase read).2 ++ (run serde session (step serde session phase read).1 reads).2) := rfl

theorem run_append (phase : Phase) (reads more : List Read) : run serde session phase (reads ++ more) =
    ((run serde session (run serde session phase reads).1 more).1,
      (run serde session phase reads).2 ++ (run serde session (run serde session phase reads).1 more).2) := by
  induction reads generalizing phase with
  | nil => rfl
  | cons read reads ih => rw [List.cons_append, run_cons, ih, run_cons, List.append_assoc]

theorem run_ended (reads : List Read) : run serde session .ended reads = (.ended, []) := by
  induction reads with
  | nil => rfl
  | cons read reads ih => rw [run_cons, step, ih, List.append_nil]

theorem run_quiet {quiet : List Read} (h : ∀ read ∈ quiet, Ignorable serde read) :
    run serde session .starting quiet = (.starting, []) := by
  induction quiet with
  | nil => rfl
  | cons read quiet ih =>
    obtain ⟨hread, hquiet⟩ := List.forall_mem_cons.1 h
    rw [run_cons, step_starting serde session hread, onStart, ih hquiet, List.append_nil]

/-- A read that the recognition goes on after adds its result, and yields its item. -/
theorem step_continues (h : Continues serde read) (acc : Accumulator) : step serde session (.recognising acc) read =
    (.recognising (acc.addAll (results serde [read])), (results serde [read]).map segmentItem) := by
  have hresults : results serde [read] = (resultOf serde read).toList := by
    cases hresult : resultOf serde read <;> simp [results, hresult]
  rw [hresults]
  rcases h with h | h | ⟨segment, seen, h⟩
  all_goals rw [step_recognising serde session h, resultOf, h]
  all_goals rfl

theorem run_body {body : List Read} (h : ∀ read ∈ body, Continues serde read) (acc : Accumulator) :
    run serde session (.recognising acc) body =
      (.recognising (acc.addAll (results serde body)), (results serde body).map segmentItem) := by
  induction body generalizing acc with
  | nil => rfl
  | cons read body ih =>
    obtain ⟨hread, hbody⟩ := List.forall_mem_cons.1 h
    have hresults : results serde (read :: body) = results serde [read] ++ results serde body :=
      List.filterMap_append (l := [read])
    rw [run_cons, step_continues serde session hread, ih hbody, hresults, List.map_append, Accumulator.addAll,
      Accumulator.addAll, Accumulator.addAll, List.foldl_append]

/-- The reads up to the first one without a property. -/
theorem exists_split (p : Read → Prop) (reads : List Read) : ∃ front rest, reads = front ++ rest ∧
    (∀ read ∈ front, p read) ∧ (rest = [] ∨ ∃ last after, rest = last :: after ∧ ¬ p last) := by
  induction reads with
  | nil => exact ⟨[], [], rfl, by simp, .inl rfl⟩
  | cons read reads ih =>
    by_cases hread : p read
    · obtain ⟨front, rest, rfl, hfront, hrest⟩ := ih
      exact ⟨read :: front, rest, rfl, List.forall_mem_cons.2 ⟨hread, hfront⟩, hrest⟩
    · exact ⟨[], read :: reads, rfl, by simp, .inr ⟨read, reads, rfl, hread⟩⟩

variable {serde session} {reads body : List Read} {seen : Option UInt64}

theorem transcribe_started (session : Session) {quiet : List Read} (more : List Read) {start : Read}
    (hquiet : ∀ read ∈ quiet, Ignorable serde read) (hstart : eventOf serde start = some (some .started)) :
    transcribe serde session (quiet ++ start :: more) =
      ((run serde session (.recognising .init) more).1,
        .ok (.started (some session.taskId)) :: (run serde session (.recognising .init) more).2) := by
  rw [transcribe, run_append, run_quiet serde session hquiet, run_cons, step_starting serde session hstart, onStart]
  rfl

theorem transcribe_finishes (h : Finishes serde reads body seen) : transcribe serde session reads =
    (.ended, .ok (.started (some session.taskId)) :: ((results serde body).map segmentItem ++
      [.ok (.taskFinished ((Accumulator.init.addAll (results serde body)).result session seen))])) := by
  obtain ⟨quiet, start, last, after, rfl, hquiet, hstart, hbody, hlast⟩ := h
  rw [transcribe_started session _ hquiet hstart, run_append, run_body serde session hbody, run_cons,
    step_recognising serde session hlast, onEvent, run_ended]
  rfl

/-- How the stream can go: it waits for the start, is refused, or starts, and then goes on, finishes or breaks off. -/
theorem transcribe_courses (serde : Serde) (session : Session) (reads : List Read) :
    transcribe serde session reads = (.starting, []) ∨
    (∃ e, transcribe serde session reads = (.ended, [.error e])) ∨
    Starts serde reads ∧
      ((∃ acc body, transcribe serde session reads =
        (.recognising acc, .ok (.started (some session.taskId)) :: (results serde body).map segmentItem)) ∨
      (∃ body seen, Finishes serde reads body seen) ∨
      ∃ body e, transcribe serde session reads =
        (.ended, .ok (.started (some session.taskId)) :: ((results serde body).map segmentItem ++ [.error e]))) := by
  obtain ⟨quiet, rest, rfl, hquiet, rfl | ⟨start, more, rfl, hstart⟩⟩ := exists_split (Ignorable serde) reads
  · rw [List.append_nil, transcribe, run_quiet serde session hquiet]
    exact .inl rfl
  · have hrun : transcribe serde session (quiet ++ start :: more) = run serde session .starting (start :: more) := by
      rw [transcribe, run_append, run_quiet serde session hquiet]
      rfl
    by_cases hstarted : eventOf serde start = some (some .started)
    · refine .inr (.inr ⟨⟨quiet, start, more, rfl, hquiet, hstarted⟩, ?_⟩)
      rw [transcribe_started session _ hquiet hstarted]
      obtain ⟨body, rest, rfl, hbody, rfl | ⟨last, after, rfl, hlast⟩⟩ := exists_split (Continues serde) more
      · rw [List.append_nil, run_body serde session hbody]
        exact .inl ⟨_, body, rfl⟩
      · by_cases hfinished : ∃ seen, eventOf serde last = some (some (.finished seen))
        · obtain ⟨seen, hseen⟩ := hfinished
          exact .inr (.inl ⟨body, seen, quiet, start, last, after, rfl, hquiet, hstarted, hbody, hseen⟩)
        · obtain ⟨e, he⟩ := step_breaks serde session hlast (not_exists.1 hfinished)
            (Accumulator.init.addAll (results serde body))
          refine .inr (.inr ⟨body, e, ?_⟩)
          rw [run_append, run_body serde session hbody, run_cons, he, run_ended]
          rfl
    · obtain ⟨e, he⟩ := step_refuses serde session hstart hstarted
      exact .inr (.inl ⟨e, by rw [hrun, run_cons, he, run_ended]; rfl⟩)

theorem segmentItem_plain {item : Item} {results : List (TranscriptSegment × Option UInt64)}
    (h : item ∈ results.map segmentItem) :
    isStarted item = false ∧ isTaskFinished item = false ∧ isError item = false := by
  obtain ⟨⟨segment, seen⟩, -, rfl⟩ := List.mem_map.1 h
  cases hfinal : segment.isFinal <;> simp [segmentItem, hfinal, isStarted, isTaskFinished, isError]

/-- A stream has ended once there was a read without an event, such as the end of the connection. -/
theorem transcribe_ends {read : Read} (hread : read ∈ reads) (hevent : eventOf serde read = none) :
    (transcribe serde session reads).1 = .ended := by
  obtain ⟨front, after, rfl⟩ := List.append_of_mem hread
  rw [transcribe, run_append, run_cons]
  cases hphase : (run serde session .starting front).1 with
  | ended => rw [step, run_ended]
  | starting | recognising =>
    have hgoing : (run serde session .starting front).1 ≠ .ended := by simp [hphase]
    obtain ⟨e, he⟩ := step_of_no_event serde session hevent hgoing
    rw [hphase] at he
    rw [he, run_ended]

variable (serde session reads) in
/-- What the stream yields over a list of reads. -/
structure Transcription : Prop where
  started : Starts serde reads → ∃ rest, (transcribe serde session reads).2 =
    .ok (.started (some session.taskId)) :: rest ∧ ∀ item ∈ rest, isStarted item = false
  refused : ¬ Starts serde reads → transcribe serde session reads = (.starting, []) ∨
    ∃ e, transcribe serde session reads = (.ended, [.error e])
  finished : ∀ body seen, Finishes serde reads body seen → ∃ front result,
    transcribe serde session reads = (.ended, front ++ [.ok (.taskFinished result)]) ∧
    (∀ item ∈ front, isTaskFinished item = false ∧ isError item = false) ∧
    result.segments = transcript ((results serde body).map Prod.fst) ∧
    result.text = String.join (result.segments.map (·.text)) ∧
    result.audioDurationMs = if seen.isSome then seen else ((results serde body).filterMap Prod.snd).max?
  unfinished : (¬ ∃ body seen, Finishes serde reads body seen) →
    (∀ item ∈ (transcribe serde session reads).2, isTaskFinished item = false) ∧
    ((transcribe serde session reads).1 = .ended → ∃ front e, (transcribe serde session reads).2 = front ++ [.error e] ∧
      ∀ item ∈ front, isError item = false) ∧
    ((transcribe serde session reads).1 ≠ .ended → ∀ item ∈ (transcribe serde session reads).2, isError item = false)
  ends : ∀ read ∈ reads, eventOf serde read = none → (transcribe serde session reads).1 = .ended

/-- The stream yields the start first and once, if the task starts, and then nothing but the segments up to its end,
which is the transcript of all that was recognised if the task finishes, and one error if it does not. -/
theorem transcribe_transcription (serde : Serde) (session : Session) (reads : List Read) :
    Transcription serde session reads where
  started h := by
    obtain ⟨quiet, start, after, rfl, hquiet, hstart⟩ := h
    have hstarted := transcribe_started session after hquiet hstart
    rcases transcribe_courses serde session (quiet ++ start :: after) with
      hrun | ⟨e, hrun⟩ | ⟨-, ⟨acc, body, hrun⟩ | ⟨body, seen, hfinishes⟩ | ⟨body, e, hrun⟩⟩
    · simp [hstarted] at hrun
    · simp [hstarted] at hrun
    · rw [hrun]
      exact ⟨_, rfl, fun item hitem => (segmentItem_plain hitem).1⟩
    · rw [transcribe_finishes hfinishes]
      refine ⟨_, rfl, List.forall_mem_append.2 ⟨fun item hitem => (segmentItem_plain hitem).1, ?_⟩⟩
      exact List.forall_mem_singleton.2 rfl
    · rw [hrun]
      refine ⟨_, rfl, List.forall_mem_append.2 ⟨fun item hitem => (segmentItem_plain hitem).1, ?_⟩⟩
      exact List.forall_mem_singleton.2 rfl
  refused h := by
    rcases transcribe_courses serde session reads with hrun | hrun | ⟨hstarts, -⟩
    · exact .inl hrun
    · exact .inr hrun
    · exact absurd hstarts h
  finished body seen h := by
    have hrepresents := Accumulator.init_represents.addAll (results serde body)
    rw [List.nil_append] at hrepresents
    refine ⟨.ok (.started (some session.taskId)) :: (results serde body).map segmentItem, _, transcribe_finishes h, ?_,
      hrepresents.segments, rfl, ?_⟩
    · exact List.forall_mem_cons.2 ⟨⟨rfl, rfl⟩, fun item hitem => (segmentItem_plain hitem).2⟩
    · rw [← hrepresents.duration]
      rfl
  unfinished h := by
    rcases transcribe_courses serde session reads with
      hrun | ⟨e, hrun⟩ | ⟨-, ⟨acc, body, hrun⟩ | hfinishes | ⟨body, e, hrun⟩⟩
    · simp [hrun]
    · rw [hrun]
      exact ⟨List.forall_mem_singleton.2 rfl, fun _ => ⟨[], e, rfl, by simp⟩, fun hended => absurd rfl hended⟩
    · rw [hrun]
      exact ⟨List.forall_mem_cons.2 ⟨rfl, fun item hitem => (segmentItem_plain hitem).2.1⟩,
        fun hended => by simp at hended, fun _ => List.forall_mem_cons.2 ⟨rfl, fun item hitem => (segmentItem_plain hitem).2.2⟩⟩
    · exact absurd hfinishes h
    · rw [hrun]
      refine ⟨List.forall_mem_cons.2 ⟨rfl, List.forall_mem_append.2 ⟨fun item hitem => (segmentItem_plain hitem).2.1,
        List.forall_mem_singleton.2 rfl⟩⟩, fun _ => ⟨_ :: (results serde body).map segmentItem, e, rfl, ?_⟩,
        fun hended => absurd rfl hended⟩
      exact List.forall_mem_cons.2 ⟨rfl, fun item hitem => (segmentItem_plain hitem).2.2⟩
  ends read hread hevent := transcribe_ends hread hevent

end

def refusal : String :=
  "\x7b\"header\":\x7b\"event\":\"task-failed\",\"error_code\":\"InvalidParameter\"\x7d,\"payload\":\x7b\x7d\x7d"

/-- The texts of a server that refuses each task. -/
def refusing : Serde where
  serverMessage t :=
    if t = refusal then .ok ⟨⟨"task-failed", some "InvalidParameter", none⟩, .obj []⟩
    else .error "malformed json at line 1 column 1"
  resultGenerated _ := .error "unexpected shape at line 0 column 0"
  resultUsage _ := none
  taskFinished _ := none

/-- A stream whose task is refused yields no start. -/
theorem refused_task_never_starts :
    transcribe refusing ⟨"task-1", "fun-asr-realtime", "10s", "30s"⟩ [.message (.text refusal)] =
      (.ended, [.error (failedWith "InvalidParameter" "")]) := by
  have hparse : parseServerEvent refusing (.text refusal) = .ok (some (.failed "InvalidParameter" "")) := by
    simp [parseServerEvent, refusing, Except.mapError]
    rfl
  rw [transcribe, run_cons, step, startFrame, hparse]
  rfl

end FunAsr
end Fusions.Ai
