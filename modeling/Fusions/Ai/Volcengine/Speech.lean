import Mathlib.Algebra.Group.Int.Defs
import Mathlib.Algebra.Group.Nat.Defs
import Mathlib.Data.List.Infix
import Fusions.Ai.OpenAiCompatible.Streaming
import Fusions.Ai.Speech
import Fusions.Hetuflow.Core.Json
import Fusions.Library.LossyUtf8

/-! Streaming synthesis of Doubao speech: from the chunks of the response to the parts of the audio. -/
namespace Fusions.Ai.Volcengine
open Fusions.Hetuflow Fusions.Library
open Fusions.Library.LossyUtf8 (fromUtf8Lossy)

def streamDoneCode : Int := 20000000

inductive StreamEvent where
  | data (audio : List UInt8)
  | done
  | error (code : Int) (message : String)
  | ignore
  deriving DecidableEq, Repr

/-- `Value::as_i64`: an integer beyond the type is none. -/
def asI64 (j : Json) : Option Int := j.asI64.filter fun n => -2 ^ 63 ≤ n && n < 2 ^ 63

/-- `str::contains`. -/
def containsText (s part : String) : Bool := decide (part.toList <:+: s.toList)

def classifyStreamCode (code : Int) (message : String) : SpeechError :=
  .vendor (toString code) message
    (code == 45000000 && (containsText message "quota" || containsText message "concurrency"))
    (50000000 ≤ code && code < 60000000)

/-- What the loop does after a line: it goes on, leaves the loop, or ends the stream with an error. -/
inductive LineStep where
  | next (parts : List AudioPart) (pending : Option (List UInt8))
  | done
  | fail (error : SpeechError)
  deriving DecidableEq, Repr

/-- The part that is held back is the last one. -/
def finish (pending : Option (List UInt8)) : AudioStream := ⟨pending.toList.map fun last => ⟨last, true⟩, none⟩

/-- The step of a line, and `more` of the loop. -/
def LineStep.followedBy (step : LineStep) (pending : Option (List UInt8))
    (more : Option (List UInt8) → AudioStream) : AudioStream :=
  match step with
  | .next parts pending => (more pending).after parts
  | .done => finish pending
  | .fail error => ⟨[], some error⟩

structure DoubaoSpeech where
  apiKey : Option String

def DoubaoSpeech.requireConfig (self : DoubaoSpeech) : Except SpeechError String :=
  match self.apiKey with
  | some key => .ok key
  | none => .error (.requestBuild "doubao speech api_key missing (DOUBAO_SPEECH_API_KEY)")

section
variable (fromStr : String → Option Json) (decodeBase64 : String → Option (List UInt8))

def parseStreamLine (line : String) : Option StreamEvent :=
  match fromStr line with
  | none => none
  | some parsed =>
    let code := ((parsed.get "code").bind asI64).getD 0
    let data := ((parsed.get "data").bind Json.asStr).getD ""
    -- data that is not base64 is skipped
    let audio := if data = "" then [] else (decodeBase64 data).getD []
    if audio ≠ [] then some (.data audio)
    else if code = streamDoneCode then some .done
    else if code ≠ 0 then some (.error code (((parsed.get "message").bind Json.asStr).getD ""))
    else some .ignore

/-- The event of a line; a blank line has none. -/
def eventOf (line : List Char) : Option StreamEvent :=
  let line := trim (String.ofList line)
  if line = "" then none else parseStreamLine fromStr decodeBase64 line

def onLine (pending : Option (List UInt8)) (line : List Char) : LineStep :=
  match eventOf fromStr decodeBase64 line with
  | some (.data audio) => .next (pending.toList.map fun prev => ⟨prev, false⟩) (some audio)
  | some .done => .done
  | some (.error code message) => .fail (classifyStreamCode code message)
  | some .ignore | none => .next [] pending

/-- The lines in the buffer, then `more` of the response. -/
def drainLines (more : Option (List UInt8) → List Char → AudioStream) (pending : Option (List UInt8))
    (buffer : List Char) : AudioStream :=
  match _htake : takeLine buffer with
  | none => more pending buffer
  | some (line, rest) =>
    (onLine fromStr decodeBase64 pending line).followedBy pending fun pending => drainLines more pending rest
  termination_by buffer.length
  decreasing_by exact takeLine_length _htake

/-- The end of the response: what is left in the buffer is a line, unless the response was cut off. -/
def onEnd (midway : Option String) (pending : Option (List UInt8)) (buffer : List Char) : AudioStream :=
  match midway with
  | some text => ⟨[], some (.streamMidway text)⟩
  | none => (onLine fromStr decodeBase64 pending buffer).followedBy pending finish

def receive (midway : Option String) :
    List (List UInt8) → Option (List UInt8) → List Char → AudioStream
  | [] => onEnd fromStr decodeBase64 midway
  | chunk :: chunks => fun pending buffer =>
    drainLines fromStr decodeBase64 (receive midway chunks) pending (buffer ++ fromUtf8Lossy chunk)

/-- `synthesize_stream`, given the answer to its request. -/
def DoubaoSpeech.synthesizeStream (self : DoubaoSpeech) (text : String) (answer : Except String Response) :
    Except SpeechError AudioStream := do
  let _ ← self.requireConfig
  if text = "" then throw (.requestBuild "synthesize text is empty")
  let response ← checkHttp (← answer.mapError .transport)
  return receive fromStr decodeBase64 response.midway response.chunks none []

end

end Fusions.Ai.Volcengine
