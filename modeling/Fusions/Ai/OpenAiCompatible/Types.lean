import Fusions.Hetuflow.Core.Json

/-! The message model of the OpenAI compatible providers, which both wires encode. Parameters beyond the fields here are
read by neither. -/
namespace Fusions.Ai.Core
open Fusions.Hetuflow

/-- A list with at least one element. -/
structure OneOrMany (α : Type) where
  first : α
  rest : List α
  deriving Repr

namespace OneOrMany
variable {α : Type}

def one (item : α) : OneOrMany α := ⟨item, []⟩

/-- None for an empty list. -/
def many : List α → Option (OneOrMany α)
  | [] => none
  | first :: rest => some ⟨first, rest⟩

def toList (items : OneOrMany α) : List α := items.first :: items.rest

theorem toList_one (item : α) : (one item).toList = [item] := rfl

theorem toList_of_many {list : List α} {items : OneOrMany α} (h : many list = some items) : items.toList = list := by
  cases list with
  | nil => cases h
  | cons first rest =>
    obtain rfl := Option.some.inj h
    rfl

end OneOrMany

/-- Where a content comes from. -/
inductive DocumentSourceKind where
  | url (url : String)
  | base64 (data : String)
  | raw (bytes : List UInt8)
  | string (text : String)
  | unknown
  deriving Repr

def DocumentSourceKind.display : DocumentSourceKind → String
  | .url s | .base64 s | .string s => s
  | .raw _ => "<binary data>"
  | .unknown => "<unknown>"

inductive ImageMediaType where
  | jpeg | png | gif | webp | heic | heif | svg
  deriving DecidableEq, Repr

def ImageMediaType.toMimeType : ImageMediaType → String
  | .jpeg => "image/jpeg"
  | .png => "image/png"
  | .gif => "image/gif"
  | .webp => "image/webp"
  | .heic => "image/heic"
  | .heif => "image/heif"
  | .svg => "image/svg+xml"

inductive DocumentMediaType where
  | pdf | txt | rtf | html | css | markdown | csv | xml | javascript | python
  deriving DecidableEq, Repr

inductive AudioMediaType where
  | wav | mp3 | aiff | aac | ogg | flac | m4a | webm | pcm16 | pcm24
  deriving DecidableEq, Repr

inductive ImageDetail where
  | low | high | auto
  deriving DecidableEq, Repr

structure Image where
  data : DocumentSourceKind
  mediaType : Option ImageMediaType
  detail : Option ImageDetail
  deriving Repr

structure Audio where
  data : DocumentSourceKind
  mediaType : Option AudioMediaType
  deriving Repr

structure Document where
  data : DocumentSourceKind
  mediaType : Option DocumentMediaType
  deriving Repr

inductive ToolResultContent where
  | text (text : String)
  | image (image : Image)
  deriving Repr

structure ToolResult where
  id : String
  callId : Option String
  content : OneOrMany ToolResultContent
  deriving Repr

structure ToolFunction where
  name : String
  arguments : Json
  deriving Repr

structure ToolCall where
  id : String
  callId : Option String
  function : ToolFunction
  signature : Option String
  additionalParams : Option Json
  deriving Repr

inductive ReasoningContent where
  | text (text : String) (signature : Option String)
  | encrypted (data : String)
  | redacted (data : String)
  | summary (text : String)
  deriving Repr

def ReasoningContent.display : ReasoningContent → String
  | .text s _ | .encrypted s | .redacted s | .summary s => s

structure Reasoning where
  id : Option String
  content : List ReasoningContent
  deriving Repr

inductive UserContent where
  | text (text : String)
  | toolResult (result : ToolResult)
  | image (image : Image)
  | audio (audio : Audio)
  | document (document : Document)
  deriving Repr

inductive AssistantContent where
  | text (text : String)
  | toolCall (call : ToolCall)
  | reasoning (reasoning : Reasoning)
  | image (image : Image)
  deriving Repr

inductive Message where
  | system (content : String)
  | user (content : OneOrMany UserContent)
  | assistant (id : Option String) (content : OneOrMany AssistantContent)
  deriving Repr

inductive ToolChoice where
  | auto
  | none
  | required
  | specific (functionNames : List String)
  deriving DecidableEq, Repr

structure ToolDefinition where
  name : String
  parameters : Json
  description : String
  deriving Repr

/-- `MessageError`, with the text of the conversion that fails. -/
structure MessageError where
  message : String
  deriving DecidableEq, Repr

end Fusions.Ai.Core

namespace Fusions.Ai

/-- `OpenAiCompatError`, as far as the building of a request goes. -/
inductive OpenAiCompatError where
  | requestBuild (message : String)
  | responseParse (message : String)
  deriving DecidableEq, Repr

def OpenAiCompatError.display : OpenAiCompatError → String
  | .requestBuild message => s!"request build error: {message}"
  | .responseParse message => s!"response parse error: {message}"

end Fusions.Ai
