import Mathlib.Data.List.AList
import Fusions.Library.Trim

/-! Chat Completions streaming: the server-sent events of a response become text, tool calls and a final usage. -/
namespace Fusions.Ai
open Fusions.Library

structure Usage where
  promptTokens : Nat
  completionTokens : Nat
  totalTokens : Nat
  cachedInputTokens : Nat
  deriving DecidableEq, Repr

def Usage.new : Usage := ⟨0, 0, 0, 0⟩

inductive ToolCallDeltaContent where
  | name (name : String)
  | delta (arguments : String)
  deriving DecidableEq, Repr

/-- The events of the stream, over the JSON values `V`. -/
inductive StreamingChoice (V : Type) where
  | text (content : String)
  | toolCall (id : String) (callId : Option String) (name : String) (arguments : V)
  | toolCallDelta (id : String) (content : ToolCallDeltaContent)
  | final (usage : Usage)
  deriving DecidableEq, Repr

structure StreamingFunction where
  name : Option String
  arguments : String
  deriving DecidableEq, Repr

structure StreamingToolCall where
  index : Nat
  id : Option String
  function : StreamingFunction
  deriving DecidableEq, Repr

structure StreamingDelta where
  content : Option String
  toolCalls : List StreamingToolCall
  deriving DecidableEq, Repr

structure StreamingChoiceChunk where
  delta : StreamingDelta
  deriving DecidableEq, Repr

structure StreamingCompletionChunk where
  choices : List StreamingChoiceChunk
  usage : Option Usage
  deriving DecidableEq, Repr

/-- What the event source yields: the data of a message, or a transport error. -/
inductive SseItem where
  | message (data : String)
  | error (text : String)
  deriving DecidableEq, Repr

/-- `serde_json`: `from_str` for chunks and for values, and the empty object. An empty text is no value. -/
structure SerdeJson (V : Type) where
  chunk : String → Option StreamingCompletionChunk
  value : String → Option V
  emptyObject : V
  value_empty : value "" = none

/-- Id, name and arguments of a tool call in progress. -/
structure PartialCall where
  id : String
  name : String
  arguments : String
  deriving DecidableEq, Repr

/-- The calls in progress, by index. -/
abbrev ToolCalls := AList fun _ : Nat => PartialCall

/-- One item that the stream yields, and the index of the fragments that a tool call is made of. -/
structure Yielded (V : Type) where
  index : Option Nat
  item : Except String (StreamingChoice V)

/-- A message that carries no chunk: a blank one, or the end mark. -/
def isMark (data : String) : Bool := trim data == "" || trim data == "[DONE]"

section
variable {V : Type} (json : SerdeJson V)

def onToolCall (calls : ToolCalls) (toolCall : StreamingToolCall) : ToolCalls × List (Yielded V) :=
  let function := toolCall.function
  -- start of a tool call
  if function.name.isSome && function.arguments == "" then
    (calls.insert toolCall.index ⟨toolCall.id.getD "", function.name.getD "", ""⟩, [])
  -- a continuation
  else if function.name.all (· == "") && function.arguments != "" then
    match calls.lookup toolCall.index with
    | some call =>
      (calls.insert toolCall.index { call with arguments := call.arguments ++ function.arguments },
        [⟨some toolCall.index, .ok (.toolCallDelta call.id (.delta function.arguments))⟩])
    | none => (calls, [])
  -- a complete tool call
  else
    match function.name with
    | none => (calls, [])
    | some name =>
      match json.value function.arguments with
      | none => (calls, [])
      | some arguments =>
        (calls, [⟨some toolCall.index, .ok (.toolCall (toolCall.id.getD "") none name arguments)⟩])

def onToolCalls : ToolCalls → List StreamingToolCall → ToolCalls × List (Yielded V)
  | calls, [] => (calls, [])
  | calls, toolCall :: rest =>
    let (calls, out) := onToolCall json calls toolCall
    let (calls, out') := onToolCalls calls rest
    (calls, out ++ out')

/-- The variables of the loop; its `text_content` is never read. -/
structure StreamState where
  finalUsage : Usage
  toolCalls : ToolCalls

def onChunk (state : StreamState) (data : StreamingCompletionChunk) : StreamState × List (Yielded V) :=
  let finalUsage := data.usage.getD state.finalUsage
  match data.choices.head? with
  | none => ({ state with finalUsage }, [])
  | some choice =>
    let (toolCalls, out) := onToolCalls json state.toolCalls choice.delta.toolCalls
    let text := choice.delta.content.toList.map fun content => ⟨none, .ok (.text content)⟩
    (⟨finalUsage, toolCalls⟩, out ++ text)

def onMessage (state : StreamState) (data : String) : StreamState × List (Yielded V) :=
  if isMark data then (state, [])
  else
    match json.chunk data with
    | none => (state, [])
    | some chunk => onChunk json state chunk

/-- The loop over the event source, up to its end or its first error. -/
def readEvents : StreamState → List SseItem → StreamState × List (Yielded V)
  | state, [] => (state, [])
  | state, .error text :: _ => (state, [⟨none, .error text⟩])
  | state, .message data :: rest =>
    let (state, out) := onMessage json state data
    let (state, out') := readEvents state rest
    (state, out ++ out')

/-- The call that is yielded for an entry left in the map. -/
def flushCall (entry : Σ _ : Nat, PartialCall) : Option (Yielded V) :=
  (json.value entry.2.arguments).map fun arguments =>
    ⟨some entry.1, .ok (.toolCall entry.2.id none entry.2.name arguments)⟩

/-- The stream of a successful response, where `order` is the order in which the hash map hands out its entries. -/
def streamChatCompletions (order : List (Σ _ : Nat, PartialCall) → List (Σ _ : Nat, PartialCall))
    (items : List SseItem) : List (Yielded V) :=
  let (state, out) := readEvents json ⟨.new, ∅⟩ items
  out ++ (order state.toolCalls.entries).filterMap (flushCall json) ++ [⟨none, .ok (.final state.finalUsage)⟩]

end

end Fusions.Ai
