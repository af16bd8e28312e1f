import Mathlib.Logic.Function.Basic
import Fusions.Hetuflow.Core.Json

/-! Contexts. The tasks and the sessions of a process hold references to the cells of a context, so that a clone
of a `Context` has the cells of the original. -/
namespace Fusions.Ai
open Fusions.Hetuflow

inductive MessageRole where
  | user
  | assistant
  | system
  deriving DecidableEq, Repr

/-- The timestamp is in milliseconds. -/
structure SerializableMessage where
  role : MessageRole
  content : String
  timestamp : Int
  deriving DecidableEq, Repr

structure ChatHistory where
  messages : List SerializableMessage
  maxMessages : Option Nat
  deriving DecidableEq, Repr

/-- `add_message` drops the oldest messages over the limit. -/
def ChatHistory.addMessage (history : ChatHistory) (message : SerializableMessage) : ChatHistory :=
  let messages := history.messages ++ [message]
  match history.maxMessages with
  | some limit => { history with messages := messages.drop (messages.length - limit) }
  | none => { history with messages := messages }

/-- The regular data of a context. -/
abbrev ContextData := String → Option Json

/-- What the cells of a context hold. -/
structure Context where
  data : ContextData
  chatHistory : ChatHistory

/-- `Context`: an `Arc<DashMap>` and an `Arc<RwLock<ChatHistory>>`. -/
structure ContextRef where
  data : Nat
  chatHistory : Nat
  deriving DecidableEq, Repr

/-- The cells, by address. -/
structure Heap where
  data : Nat → ContextData
  chatHistory : Nat → ChatHistory

namespace Heap
variable (heap : Heap)

def load (context : ContextRef) : Context := ⟨heap.data context.data, heap.chatHistory context.chatHistory⟩

def store (context : ContextRef) (value : Context) : Heap :=
  ⟨Function.update heap.data context.data value.data,
    Function.update heap.chatHistory context.chatHistory value.chatHistory⟩

variable {heap} {context : ContextRef} {value value' : Context}

@[simp] theorem load_store : (heap.store context value).load context = value := by
  simp [load, store]

@[simp] theorem store_store : (heap.store context value).store context value' = heap.store context value' := by
  simp [store]

@[simp] theorem store_load : heap.store context (heap.load context) = heap := by
  simp [store, load]

end Heap

end Fusions.Ai
