import Mathlib.Data.List.Infix
import Fusions.Library.Trim

/-! Elements as they are written: names in angle brackets, texts, and sections that quote a text. -/
namespace Fusions.Library

/-- What stands in an element or a document: texts and sections with a name, and elements with elements in them. -/
inductive Elements where
  | nil
  | plain (name value : List Char) (rest : Elements)
  | cdata (name value : List Char) (rest : Elements)
  | node (name : List Char) (children rest : Elements)

/-- The names and values, in the order of the document. -/
def Elements.leaves : Elements → List (List Char × List Char)
  | .nil => []
  | .plain name value rest => (name, value) :: rest.leaves
  | .cdata name value rest => (name, value) :: rest.leaves
  | .node _ children rest => children.leaves ++ rest.leaves

def cdataOpen : List Char := ['<', '!', '[', 'C', 'D', 'A', 'T', 'A', '[']

def cdataClose : List Char := [']', ']', '>']

def startTag (name : List Char) : List Char := '<' :: (name ++ ['>'])

def endTag (name : List Char) : List Char := '<' :: '/' :: (name ++ ['>'])

def IsGap (gap : List Char) : Prop := ∀ c ∈ gap, isWhitespace c = true

/-- The first character of an end tag, a declaration or a comment, behind its bracket. -/
def isSpecial (c : Char) : Bool := c == '/' || c == '?' || c == '!'

structure IsName (name : List Char) : Prop where
  bracket : '<' ∉ name
  close : '>' ∉ name
  head : ∀ c ∈ name.head?, isSpecial c = false

/-- The texts of elements, with white space between them. -/
inductive Elements.Written : Elements → List Char → Prop where
  | nil {gap : List Char} (hgap : IsGap gap) : Written .nil gap
  | plain {gap name value text : List Char} {rest : Elements} (hgap : IsGap gap) (hname : IsName name)
      (hvalue : '<' ∉ value) (hrest : rest.Written text) :
      Written (.plain name value rest) (gap ++ (startTag name ++ (value ++ (endTag name ++ text))))
  | cdata {gap name value text : List Char} {rest : Elements} (hgap : IsGap gap) (hname : IsName name)
      (hvalue : ¬cdataClose <:+: value) (hrest : rest.Written text) :
      Written (.cdata name value rest)
        (gap ++ (startTag name ++ (cdataOpen ++ (value ++ (cdataClose ++ (endTag name ++ text))))))
  | node {gap name inner text : List Char} {children rest : Elements} (hgap : IsGap gap) (hname : IsName name)
      (hchildren : children.Written inner) (hrest : rest.Written text) :
      Written (.node name children rest) (gap ++ (startTag name ++ (inner ++ (endTag name ++ text))))

/-- No declaration, or one. -/
inductive IsDeclaration : List Char → Prop where
  | absent : IsDeclaration []
  | present {text : List Char} (h : '>' ∉ text) : IsDeclaration ('<' :: '?' :: (text ++ ['?', '>']))

/-- Every value is a text without white space at its ends. -/
def Elements.Trimmed (elements : Elements) : Prop :=
  ∀ leaf ∈ elements.leaves, leaf.2 ≠ [] ∧ trim (String.ofList leaf.2) = String.ofList leaf.2

theorem IsGap.bracket_notMem {gap : List Char} (h : IsGap gap) : '<' ∉ gap :=
  fun hmem => absurd (h '<' hmem) (by decide)

end Fusions.Library
