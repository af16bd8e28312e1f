import Fusions.Ai.OpenAiCompatible.Completion
import Fusions.Ai.OpenAiCompatible.ResponsesApi
import Fusions.Ai.OpenAiCompatible.Schemas

/-! One chat request on the two OpenAI compatible wires, and what the two bodies say. -/
namespace Fusions.Ai.Llm
open Fusions.Hetuflow Fusions.Library

inductive ChatRole where
  | system | user | assistant | tool
  deriving DecidableEq, Repr

def ChatRole.asStr : ChatRole → String
  | .system => "system"
  | .user => "user"
  | .assistant => "assistant"
  | .tool => "tool"

/-- A call, with the text of its arguments. -/
structure ToolCall where
  id : Option String
  name : String
  arguments : String
  deriving DecidableEq, Repr

structure ChatMessage where
  role : ChatRole
  content : String
  toolCalls : List ToolCall
  toolCallId : Option String
  deriving DecidableEq, Repr

structure ToolDefinition where
  name : String
  description : Option String
  parameters : Json
  deriving Repr

inductive ToolChoice where
  | auto
  | required
  | function (name : String)
  deriving DecidableEq, Repr

/-- `ChatCompletionRequest`; its timeout is on neither wire. -/
structure ChatCompletionRequest where
  model : Option String
  systemPrompt : Option String
  messages : List ChatMessage
  tools : List ToolDefinition
  toolChoice : Option ToolChoice
  temperature : Option Float32
  maxTokens : Option UInt64

/-- The model, or the default one. -/
def ChatCompletionRequest.modelOr (req : ChatCompletionRequest) (defaultModel : String) : String :=
  req.model.getD defaultModel

/-- The system prompt, unless it is empty. -/
def ChatCompletionRequest.preamble (req : ChatCompletionRequest) : Option String :=
  req.systemPrompt.filter (· != "")

/-! The body of Chat Completions. -/

/-- `obj.insert` of a field that is there. -/
def insertOption (fields : List (String × Json)) (key : String) : Option Json → List (String × Json)
  | some value => Json.insert fields key value
  | none => fields

def toolCallJson (call : ToolCall) : Json :=
  .obj [("id", .str (call.id.getD "")), ("type", .str "function"),
    ("function", .obj [("name", .str call.name), ("arguments", .str call.arguments)])]

def messageJson (message : ChatMessage) : Json :=
  let toolCalls := if message.toolCalls.isEmpty then none else some (.arr (message.toolCalls.map toolCallJson))
  let toolCallId := (message.toolCallId.filter (· != "")).map .str
  .obj (insertOption (insertOption [("role", .str message.role.asStr), ("content", .str message.content)]
    "tool_calls" toolCalls) "tool_call_id" toolCallId)

def toolJson (tool : ToolDefinition) : Json :=
  let function := insertOption [("name", .str tool.name)] "description" (tool.description.map .str)
  .obj [("type", .str "function"), ("function", .obj (Json.insert function "parameters" tool.parameters))]

def toolChoiceJson : ToolChoice → Json
  | .auto => .str "auto"
  | .required => .str "required"
  | .function name => .obj [("type", .str "function"), ("function", .obj [("name", .str name)])]

section
variable (ofF64 : Float → Json)

/-- `build_request_body`; `ofF64` is the JSON value of a number. -/
def buildRequestBody (defaultModel : String) (req : ChatCompletionRequest) : Json :=
  let system := req.preamble.toList.map fun system => .obj [("role", .str "system"), ("content", .str system)]
  let body := [("model", .str (req.modelOr defaultModel)), ("messages", .arr (system ++ req.messages.map messageJson))]
  let body := insertOption body "temperature" (req.temperature.map fun t => ofF64 t.toFloat)
  let body := insertOption body "max_tokens" (req.maxTokens.map fun mt => .num mt.toNat)
  let body := insertOption body "tools" (if req.tools.isEmpty then none else some (.arr (req.tools.map toolJson)))
  .obj (insertOption body "tool_choice" (req.toolChoice.map toolChoiceJson))

end

/-! The request of the Responses wire. -/

structure ResponsesToolDefinition where
  name : String
  parameters : Json
  strict : Bool
  kind : String
  description : String
  deriving Repr

/-- The tool choices of both wires' clients. -/
inductive WireToolChoice where
  | auto | none | required
  deriving DecidableEq, Repr

def WireToolChoice.asStr : WireToolChoice → String
  | .auto => "auto"
  | .none => "none"
  | .required => "required"

def WireToolChoice.tryFrom : Core.ToolChoice → Except OpenAiCompatError WireToolChoice
  | .specific _ => .error (.requestBuild "Provider doesn't support only using specific tools")
  | .auto => .ok .auto
  | .none => .ok .none
  | .required => .ok .required

/-- `CompletionRequest` of the Responses wire, without the reasoning parameters of the provider. -/
structure CompletionRequest where
  input : Core.OneOrMany Responses.InputItem
  model : String
  instructions : Option String
  maxOutputTokens : Option UInt64
  temperature : Option Float
  toolChoice : Option WireToolChoice
  tools : List ResponsesToolDefinition

def ResponsesToolDefinition.ofCore (tool : Core.ToolDefinition) : ResponsesToolDefinition :=
  ⟨tool.name, addPropsFalse tool.parameters, true, "function", tool.description⟩

def CompletionRequest.fromHistory (debug : Core.UserContent → String) (model : String) (preamble : Option String)
    (history : List Core.Message) (tools : List Core.ToolDefinition) (toolChoice : Option Core.ToolChoice)
    (temperature : Option Float) (maxTokens : Option UInt64) : Except OpenAiCompatError CompletionRequest := do
  let fullHistory ← Responses.fullHistory debug history
  match Core.OneOrMany.many fullHistory with
  | none => .error (.requestBuild "Completion request contained no input messages")
  | some input =>
    let toolChoice ← match toolChoice with
      | some choice => (WireToolChoice.tryFrom choice).map some
      | none => .ok none
    return ⟨input, model, preamble, maxTokens, temperature, toolChoice, tools.map .ofCore⟩

section
variable (fromStr : String → Option Json)

/-- A call as a core one: its id is also its call id, and arguments that are no JSON become an empty object. -/
def toCoreCall (call : ToolCall) : Core.ToolCall :=
  let callId := call.id.getD ""
  ⟨callId, some callId, ⟨call.name, (fromStr call.arguments).getD (.obj [])⟩, none, none⟩

def toCore (message : ChatMessage) : Except String Core.Message :=
  match message.role with
  | .system => .ok (.system message.content)
  | .user => .ok (.user (.one (.text message.content)))
  | .assistant =>
    if message.toolCalls.isEmpty then .ok (.assistant none (.one (.text message.content)))
    else
      let text := if message.content = "" then [] else [.text message.content]
      match Core.OneOrMany.many (text ++ message.toolCalls.map fun call => .toolCall (toCoreCall fromStr call)) with
      | some content => .ok (.assistant none content)
      | none => .error "assistant message content empty"
  | .tool =>
    match message.toolCallId with
    | none => .error "tool message missing tool_call_id (Responses API requires call_id)"
    | some callId => .ok (.user (.one (.toolResult ⟨callId, some callId, .one (.text message.content)⟩)))

def chatHistoryToCore (messages : List ChatMessage) : Except String (List Core.Message) :=
  encodeEach (toCore fromStr) messages

def toCoreToolChoice : ToolChoice → Core.ToolChoice
  | .auto => .auto
  | .required => .required
  | .function name => .specific [name]

def toCoreTool (tool : ToolDefinition) : Core.ToolDefinition :=
  ⟨tool.name, tool.parameters, tool.description.getD ""⟩

/-- The request that `responses_complete` sends, or the message of its configuration error. -/
def responsesRequest (debug : Core.UserContent → String) (defaultModel : String) (req : ChatCompletionRequest) :
    Except String CompletionRequest := do
  let history ← (chatHistoryToCore fromStr req.messages).mapError fun m => s!"responses request build: {m}"
  (CompletionRequest.fromHistory debug (req.modelOr defaultModel) req.preamble history (req.tools.map toCoreTool)
    (req.toolChoice.map toCoreToolChoice) (req.temperature.map Float32.toFloat) none).mapError
    fun e => s!"responses request build: {e.display}"

end
end Fusions.Ai.Llm
