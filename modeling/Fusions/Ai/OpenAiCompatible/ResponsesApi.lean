import Fusions.Library.Encoders
import Fusions.Ai.OpenAiCompatible.Types

/-! The input items of the Responses wire, and how a core message becomes some. -/
namespace Fusions.Ai.Responses
open Fusions.Hetuflow Fusions.Library

inductive Role where
  | user | assistant | system
  deriving DecidableEq, Repr

inductive ToolStatus where
  | inProgress | completed | incomplete
  deriving DecidableEq, Repr

structure SystemContent where
  text : String
  deriving Repr

inductive UserContent where
  | inputText (text : String)
  | inputImage (imageUrl : String) (detail : Core.ImageDetail)
  | inputFile (fileUrl fileData filename : Option String)
  deriving Repr

/-- `AssistantContentType`, as far as one is made of a core message. -/
inductive AssistantContent where
  | outputText (text : String)
  | refusal (refusal : String)
  deriving Repr

inductive Message where
  | system (content : Core.OneOrMany SystemContent) (name : Option String)
  | user (content : Core.OneOrMany UserContent) (name : Option String)
  | assistant (content : Core.OneOrMany AssistantContent) (id : String) (name : Option String) (status : ToolStatus)
  deriving Repr

structure OpenAIReasoning where
  id : String
  summary : List String
  encryptedContent : Option String
  status : Option ToolStatus
  deriving Repr

structure OutputFunctionCall where
  id : String
  arguments : Json
  callId : String
  name : String
  status : ToolStatus
  deriving Repr

structure ToolResult where
  callId : String
  output : String
  status : ToolStatus
  deriving Repr

inductive InputContent where
  | message (message : Message)
  | reasoning (reasoning : OpenAIReasoning)
  | functionCall (call : OutputFunctionCall)
  | functionCallOutput (result : ToolResult)
  deriving Repr

structure InputItem where
  role : Option Role
  input : InputContent
  deriving Repr

def userItem (content : UserContent) : InputItem := ⟨some .user, .message (.user (.one content) none)⟩

/-- One output for each text of a result. -/
def convertToolResult (result : Core.ToolResult) : Except OpenAiCompatError (List InputItem) :=
  result.content.toList |> encodeEach fun content =>
    match content with
    | .text text => .ok ⟨none, .functionCallOutput ⟨result.callId.getD result.id, text, .completed⟩⟩
    | .image _ => .error (.requestBuild "Responses API only supports text tool results")

def convertPdf : Core.DocumentSourceKind → Except OpenAiCompatError InputItem
  | .base64 data =>
    .ok (userItem (.inputFile none (some s!"data:application/pdf;base64,{data}") (some "document.pdf")))
  | .url url => .ok (userItem (.inputFile (some url) none (some "document.pdf")))
  | .raw _ => .error (.requestBuild "Raw file data not supported, encode as base64 first")
  | doc => .error (.requestBuild s!"Unsupported document type: {doc.display}")

def imageItem (image : Core.Image) (url : String) : InputItem := userItem (.inputImage url (image.detail.getD .auto))

def convertImage (image : Core.Image) : Except OpenAiCompatError InputItem :=
  match image.data with
  | .base64 data =>
    let mediaType := (image.mediaType.map Core.ImageMediaType.toMimeType).getD ""
    .ok (imageItem image s!"data:{mediaType};base64,{data}")
  | .url url => .ok (imageItem image url)
  | .raw _ => .error (.requestBuild "Raw file data not supported, encode as base64 first")
  | doc => .error (.requestBuild s!"Unsupported document type: {doc.display}")

section
variable (debug : Core.UserContent → String)

/-- The items of a part of a user's message; `debug` is what the part is printed as. -/
def convertUserContent : Core.UserContent → Except OpenAiCompatError (List InputItem)
  | .text text => .ok [userItem (.inputText text)]
  | .toolResult result => convertToolResult result
  | .document document =>
    if document.mediaType = some .pdf then (convertPdf document.data).map ([·])
    else
      match document.data with
      | .base64 text | .string text => .ok [userItem (.inputText text)]
      | .url _ | .raw _ | .unknown => .error (.requestBuild s!"Unsupported message: {debug (.document document)}")
  | .image image => (convertImage image).map ([·])
  | .audio audio => .error (.requestBuild s!"Unsupported message: {debug (.audio audio)}")

def convertAssistantContent (id : Option String) : Core.AssistantContent → Except OpenAiCompatError InputItem
  | .text text =>
    .ok ⟨some .assistant, .message (.assistant (.one (.outputText text)) (id.getD "") none .completed)⟩
  | .toolCall call =>
    .ok ⟨none, .functionCall ⟨call.id, call.function.arguments, call.callId.getD "", call.function.name, .completed⟩⟩
  | .reasoning reasoning =>
    match reasoning.id with
    | none => .error (.requestBuild "An OpenAI-generated ID is required when using OpenAI reasoning items")
    | some id => .ok ⟨none, .reasoning ⟨id, reasoning.content.map Core.ReasoningContent.display, none, none⟩⟩
  | .image _ => .error (.requestBuild "OpenAI Responses API does not support image content in assistant messages")

/-- `try_from_message_to_vec_input_item`. -/
def tryFromMessage : Core.Message → Except OpenAiCompatError (List InputItem)
  | .system content => .ok [⟨some .system, .message (.system (.one ⟨content⟩) none)⟩]
  | .user content => encodeAll (convertUserContent debug) content.toList
  | .assistant id content => encodeEach (convertAssistantContent id) content.toList

/-- The items of a history. -/
def fullHistory (history : List Core.Message) : Except OpenAiCompatError (List InputItem) :=
  encodeAll (tryFromMessage debug) history

end
end Fusions.Ai.Responses
