import Fusions.Library.Encoders
import Fusions.Ai.OpenAiCompatible.Types

/-! The messages of the Chat Completions wire, and how a core message becomes some. -/
namespace Fusions.Ai.Completion
open Fusions.Hetuflow Fusions.Library

structure ImageUrl where
  url : String
  detail : Core.ImageDetail
  deriving Repr

structure InputAudio where
  data : String
  format : Core.AudioMediaType
  deriving Repr

inductive UserContent where
  | text (text : String)
  | image (imageUrl : ImageUrl)
  | audio (inputAudio : InputAudio)
  deriving Repr

inductive AssistantContent where
  | text (text : String)
  | refusal (refusal : String)
  deriving Repr

structure Function where
  name : String
  arguments : Json
  deriving Repr

structure ToolCall where
  id : String
  function : Function
  signature : Option String
  additionalParams : Option Json
  deriving Repr

structure ToolResultContent where
  text : String
  deriving Repr

structure SystemContent where
  text : String
  deriving Repr

inductive Message where
  | system (content : Core.OneOrMany SystemContent) (name : Option String)
  | user (content : Core.OneOrMany UserContent) (name : Option String)
  | assistant (content : List AssistantContent) (refusal : Option String) (audio : Option String) (name : Option String)
      (toolCalls : List ToolCall)
  | toolResult (toolCallId : String) (content : Core.OneOrMany ToolResultContent)
  deriving Repr

def convertToolResultContent : Core.ToolResultContent → Except Core.MessageError ToolResultContent
  | .text text => .ok ⟨text⟩
  | .image _ => .error ⟨"Tool result content does not support non-text"⟩

def convertToolResult (result : Core.ToolResult) : Except Core.MessageError Message := do
  let toolCallId := result.callId.getD result.id
  let mappedItems ← encodeEach convertToolResultContent result.content.toList
  match Core.OneOrMany.many mappedItems with
  | some content => return .toolResult toolCallId content
  | none => .error ⟨"Failed to create OneOrMany from mapped items"⟩

def convertImage (image : Core.Image) : Except Core.MessageError UserContent :=
  match image.data with
  | .url url => .ok (.image ⟨url, image.detail.getD .auto⟩)
  | .base64 data =>
    match image.mediaType with
    | none => .error ⟨"OpenAI Image URI must have media type"⟩
    | some mediaType =>
      match image.detail with
      | none => .error ⟨"OpenAI image URI must have image detail"⟩
      | some detail => .ok (.image ⟨s!"data:{mediaType.toMimeType};base64,{data}", detail⟩)
  | .raw _ => .error ⟨"Raw files not supported, encode as base64 first"⟩
  | .string _ | .unknown => .error ⟨"Document has no supported body"⟩

def convertUserContent : Core.UserContent → Except Core.MessageError UserContent
  | .text text => .ok (.text text)
  | .image image => convertImage image
  | .document document =>
    match document.data with
    | .base64 text | .string text => .ok (.text text)
    | .url _ | .raw _ | .unknown => .error ⟨"Documents must be base64 or a string"⟩
  | .audio audio =>
    match audio.data with
    | .base64 data => .ok (.audio ⟨data, audio.mediaType.getD .mp3⟩)
    | .url _ | .raw _ | .string _ | .unknown => .error ⟨"Tool result is in unsupported format"⟩
  | .toolResult _ => .error ⟨"Tool result is in unsupported format"⟩

def asToolResult : Core.UserContent → Option Core.ToolResult
  | .toolResult result => some result
  | _ => none

/-- The texts and the tool calls of an assistant. -/
def splitContent : List Core.AssistantContent → Except Core.MessageError (List String × List Core.ToolCall)
  | [] => .ok ([], [])
  | .text text :: rest => do
    let (texts, tools) ← splitContent rest
    return (text :: texts, tools)
  | .toolCall call :: rest => do
    let (texts, tools) ← splitContent rest
    return (texts, call :: tools)
  | .reasoning _ :: _ => .error ⟨"OpenAI Completions API does not support reasoning content"⟩
  | .image _ :: _ => .error ⟨"OpenAI Completions API does not support image content"⟩

def convertToolCall (call : Core.ToolCall) : ToolCall :=
  ⟨call.id, ⟨call.function.name, call.function.arguments⟩, call.signature, call.additionalParams⟩

/-- `try_from_message_to_vec_input_item`. Of a message with tool results only these are sent. -/
def tryFromMessage : Core.Message → Except Core.MessageError (List Message)
  | .user content =>
    let toolResults := content.toList.filterMap asToolResult
    if toolResults ≠ [] then encodeEach convertToolResult toolResults
    else do
      let otherContent ← encodeEach convertUserContent content.toList
      match Core.OneOrMany.many otherContent with
      | some content => return [.user content none]
      -- where the source would panic: `many_otherContent`
      | none => .error ⟨"There must be other content here if there were no tool result content"⟩
  | .system content => .ok [.system (.one ⟨content⟩) none]
  | .assistant _ content => do
    let (texts, toolCalls) ← splitContent content.toList
    return [.assistant (texts.map .text) none none none (toolCalls.map convertToolCall)]

/-- There is other content if there are no tool results. -/
theorem many_otherContent {content : Core.OneOrMany Core.UserContent} {otherContent : List UserContent}
    (h : encodeEach convertUserContent content.toList = .ok otherContent) :
    (Core.OneOrMany.many otherContent).isSome = true := by
  have hlength := length_encodeEach h
  cases otherContent with
  | nil => simp [Core.OneOrMany.toList] at hlength
  | cons => rfl

/-- The messages of a history. -/
def fromHistory (history : List Core.Message) : Except Core.MessageError (List Message) :=
  encodeAll tryFromMessage history

end Fusions.Ai.Completion
