import Mathlib.Algebra.Group.Nat.Defs

/-! What the speech clients share: their errors and the parts of an audio stream. -/
namespace Fusions.Ai

inductive SpeechError where
  | http (status : UInt16) (message : String)
  | vendor (code message : String) (rateLimited transient : Bool)
  | transport (text : String)
  | protocol (text : String)
  | requestBuild (text : String)
  | streamMidway (text : String)
  deriving DecidableEq, Repr

namespace SpeechError

def isRateLimited : SpeechError → Bool
  | .http status _ => status == 429
  | .vendor _ _ rateLimited _ => rateLimited
  | _ => false

def isRetryable : SpeechError → Bool
  | .transport _ | .streamMidway _ => true
  | .http status _ => status == 429 || status ≥ 500
  | .vendor _ _ rateLimited transient => rateLimited || transient
  | .protocol _ | .requestBuild _ => false

theorem isRetryable_of_isRateLimited {error : SpeechError} (h : error.isRateLimited) : error.isRetryable := by
  cases error with
  | http status message => exact Bool.or_eq_true_iff.2 (.inl h)
  | vendor code message rateLimited transient => exact Bool.or_eq_true_iff.2 (.inl h)
  | transport | protocol | requestBuild | streamMidway => exact absurd h Bool.false_ne_true

end SpeechError

structure AudioPart where
  bytes : List UInt8
  isLast : Bool
  deriving DecidableEq, Repr

/-- What a stream yields: its parts, and the error that ends it. -/
structure AudioStream where
  parts : List AudioPart
  error : Option SpeechError
  deriving DecidableEq, Repr

/-- The stream with parts yielded before it. -/
def AudioStream.after (parts : List AudioPart) (stream : AudioStream) : AudioStream :=
  { stream with parts := parts ++ stream.parts }

/-- What an HTTP call gives: its status, its body as text, and the body in chunks with the error that cuts it off. -/
structure Response where
  status : UInt16
  text : Option String
  chunks : List (List UInt8)
  midway : Option String

def checkHttp (response : Response) : Except SpeechError Response :=
  if 200 ≤ response.status && response.status < 300 then .ok response
  else .error (.http response.status (response.text.getD ""))

/-- What is made of a response that passes. -/
theorem checkHttp_bind_ok {α : Type} {response : Response} {f : Response → α} {x : α}
    (h : ((checkHttp response).bind fun response => .ok (f response)) = .ok x) : x = f response := by
  rw [checkHttp] at h
  split at h
  · exact (Except.ok.inj h).symm
  · exact absurd h nofun

/-- `find('\n')` and `drain(..=pos)`: the first line and what is behind it. -/
def takeLine : List Char → Option (List Char × List Char)
  | [] => none
  | c :: buffer =>
    if c = '\n' then some ([], buffer) else (takeLine buffer).map fun (line, rest) => (c :: line, rest)

theorem takeLine_eq_none {buffer : List Char} : takeLine buffer = none ↔ '\n' ∉ buffer := by
  induction buffer with
  | nil => simp [takeLine]
  | cons c buffer ih =>
    rw [takeLine]
    split
    · next h => simp [h]
    · next h => rw [Option.map_eq_none_iff, ih, List.mem_cons, not_or, and_iff_right (Ne.symm h)]

theorem takeLine_eq_some {buffer line rest : List Char} (h : takeLine buffer = some (line, rest)) :
    buffer = line ++ '\n' :: rest ∧ '\n' ∉ line := by
  induction buffer generalizing line with
  | nil => exact absurd h nofun
  | cons c buffer ih =>
    rw [takeLine] at h
    split at h
    · next hc =>
      obtain ⟨rfl, rfl⟩ := Prod.mk.inj (Option.some.inj h)
      exact ⟨by rw [hc]; rfl, List.not_mem_nil⟩
    · next hc =>
      obtain ⟨⟨line', rest'⟩, htake, heq⟩ := Option.map_eq_some_iff.1 h
      obtain ⟨rfl, rfl⟩ := Prod.mk.inj heq
      obtain ⟨rfl, hline⟩ := ih htake
      exact ⟨rfl, by rw [List.mem_cons, not_or]; exact ⟨Ne.symm hc, hline⟩⟩

theorem takeLine_length {buffer line rest : List Char} (h : takeLine buffer = some (line, rest)) :
    rest.length < buffer.length := by
  rw [(takeLine_eq_some h).1, List.length_append, List.length_cons]
  omega

end Fusions.Ai
