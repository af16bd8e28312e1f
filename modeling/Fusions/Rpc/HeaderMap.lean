import Mathlib.Algebra.Group.Int.Defs
import Mathlib.Algebra.Group.Nat.Defs
import Mathlib.Logic.Function.Basic

/-! HTTP headers: names without regard to case, values as bytes, and maps with several values for a name. -/
namespace Fusions.Rpc

def isNameChar (c : Char) : Bool := c.isAlphanum || "!#$%&'*+-.^_`|~".toList.contains c

/-- The names that the parser accepts, in lower case. -/
def isHeaderName (name : String) : Bool :=
  !name.isEmpty && decide (name.length < 2 ^ 16) && name.toList.all fun c => isNameChar c && !c.isUpper

structure HeaderName where
  name : String
  valid : isHeaderName name = true
  deriving DecidableEq

def HeaderName.parse (name : String) : Option HeaderName :=
  let lower := name.map Char.toLower
  if h : isHeaderName lower = true then some ⟨lower, h⟩ else none

def authorization : HeaderName := ⟨"authorization", by decide +kernel⟩

def cookie : HeaderName := ⟨"cookie", by decide +kernel⟩

/-- The bytes of a value are printable, a tab, or not ASCII. -/
def isValueByte (b : UInt8) : Bool := (32 ≤ b && b != 127) || b == 9

structure HeaderValue where
  bytes : List UInt8
  valid : bytes.all isValueByte = true
  deriving DecidableEq

namespace HeaderValue

def parse (value : String) : Option HeaderValue :=
  let bytes := value.toUTF8.toList
  if h : bytes.all isValueByte = true then some ⟨bytes, h⟩ else none

/-- `HeaderValue::to_str`: only visible ASCII is text. -/
def toStr (v : HeaderValue) : Option String :=
  if v.bytes.all fun b => (32 ≤ b && b < 127) || b == 9 then
    some (String.ofList (v.bytes.map fun b => Char.ofNat b.toNat))
  else none

end HeaderValue

/-- The values of each name in their order. -/
@[ext] structure HeaderMap where
  values : HeaderName → List HeaderValue

namespace HeaderMap
variable (headers : HeaderMap)

def get (name : HeaderName) : Option HeaderValue := (headers.values name).head?

def set (name : HeaderName) (values : List HeaderValue) : HeaderMap := ⟨Function.update headers.values name values⟩

/-- `HeaderMap::remove` by a text. What is no header name is in no map. -/
def remove (name : String) : HeaderMap :=
  match HeaderName.parse name with
  | some name => headers.set name []
  | none => headers

/-- `HeaderMap::insert` by a static text, which panics when that is no header name. -/
def insert (name : String) (value : HeaderValue) : Option HeaderMap :=
  (HeaderName.parse name).map fun name => headers.set name [value]

theorem values_remove (name : String) (n : HeaderName) :
    (headers.remove name).values n = if HeaderName.parse name = some n then [] else headers.values n := by
  unfold remove
  cases hparse : HeaderName.parse name with
  | none => simp
  | some n' =>
    by_cases hn : n' = n
    · simp [set, hn]
    · simp [set, hn, Ne.symm hn]

end HeaderMap

end Fusions.Rpc
