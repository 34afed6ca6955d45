import CoverageAccess.Markup.Escape
/-!
# Written markup

A `Node` is a piece of a document as it is written: running text, or an element with its full tag,
which may carry a namespace part. `Node.render` is the text of a node. Text and attribute values are
escaped on the way out, so no value can open or close a tag. Elements always have both tags.
-/

namespace CoverageAccess

namespace Markup

/-- A piece of a document to be written. -/
inductive Node where
  | text (s : String)
  | element (tag : String) (attributes : List (String × String)) (children : List Node)

namespace Node

def leaf (tag : String) (s : String) : Node :=
  element tag [] [text s]

/-- The characters of an attribute, with the space before it. -/
def attributeChars (a : String × String) : List Char :=
  ' ' :: a.1.toList ++ "=\"".toList ++ escape a.2.toList ++ "\"".toList

mutual

def chars : Node → List Char
  | .text s => escape s.toList
  | .element tag attributes children =>
    '<' :: tag.toList ++ attributes.flatMap attributeChars ++ '>' :: charsAll children ++
      "</".toList ++ tag.toList ++ ">".toList

def charsAll : List Node → List Char
  | [] => []
  | n :: ns => chars n ++ charsAll ns

end

def render (n : Node) : String :=
  String.ofList n.chars

def renderAll (ns : List Node) : String :=
  String.ofList (charsAll ns)

/-- The declaration that stands before the root element, with the line end after it. -/
def declaration : String :=
  "<?xml version=\"1.0\" encoding=\"UTF-8\"?>\n"

def document (root : Node) : String :=
  declaration ++ root.render

@[simp] theorem charsAll_nil : charsAll [] = [] := rfl

@[simp] theorem charsAll_cons (n : Node) (ns : List Node) :
    charsAll (n :: ns) = chars n ++ charsAll ns := rfl

@[simp] theorem toList_render (n : Node) : n.render.toList = n.chars := by
  simp [render]

end Node

end Markup

end CoverageAccess
