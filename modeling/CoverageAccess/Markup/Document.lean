import CoverageAccess.Fault
import CoverageAccess.Markup.Element
import CoverageAccess.Markup.Token
/-!
# Documents

`Element.parse` reads a document and answers its root element. The tokens are fed one by one to a
`Builder`, which keeps the elements that are open, the innermost first, and the root once it is
complete. Names lose their namespace part. An end tag has to repeat the full name of its start tag.
-/

namespace CoverageAccess

namespace Markup

/-- A name without its namespace part: what follows the first colon, or all of it. -/
def localName (name : List Char) : List Char :=
  match Text.cut? (· == ':') name with
  | some (_, rest) => rest
  | none => name

/-- The element that a tag starts, without content. -/
def Element.ofTag (tag : List Char) (attributes : List RawAttribute) : Element :=
  { name := String.ofList (localName tag)
    attributes := attributes.map fun a => (String.ofList (localName a.1), String.ofList a.2)
    children := []
    text := "" }

/-- An element whose end tag has not been read: its full name and what has been read of it. -/
structure Frame where
  tag : List Char
  element : Element

/-- What has been read of a document. -/
structure Builder where
  /-- The open elements, the innermost first. -/
  frames : List Frame
  root : Option Element

namespace Builder

def empty : Builder := ⟨[], none⟩

/-- A complete element becomes a child of the innermost open one, or the root. -/
def attach (b : Builder) (e : Element) : Except Malformed Builder :=
  match b.frames, b.root with
  | f :: fs, _ =>
    .ok { b with frames := { f with element.children := f.element.children ++ [e] } :: fs }
  | [], none => .ok { b with root := some e }
  | [], some _ => .error .severalRoots

/-- Text goes to the innermost open element; outside the root it is not looked at. -/
def write (b : Builder) (s : List Char) : Builder :=
  match b.frames with
  | [] => b
  | f :: fs =>
    { b with frames := { f with element.text := f.element.text ++ String.ofList s } :: fs }

/-- One more token. -/
def feed (b : Builder) : Token → Except Malformed Builder
  | .start tag attributes => .ok { b with frames := ⟨tag, .ofTag tag attributes⟩ :: b.frames }
  | .empty tag attributes => b.attach (.ofTag tag attributes)
  | .close tag =>
    match b.frames with
    | [] => .error (.endTag "" (String.ofList tag))
    | f :: fs =>
      if f.tag = tag then attach { b with frames := fs } f.element
      else .error (.endTag (String.ofList f.tag) (String.ofList tag))
  | .text s =>
    if b.frames.isEmpty then .ok b
    else
      match unescape? s with
      | some s => .ok (b.write s)
      | none => .error .reference
  | .data s => .ok (b.write s)
  | .broken cause => .error cause

def finish (b : Builder) : Except Malformed Element :=
  match b.frames, b.root with
  | [], some e => .ok e
  | [], none => .error .noRoot
  | _ :: _, _ => .error .openElement

end Builder

def Element.parseChars (s : List Char) : Except Malformed Element := do
  (← (tokens s).foldlM Builder.feed Builder.empty).finish

def Malformed.fault (m : Malformed) : Fault :=
  .invalid "xml" s!"Unable to parse XML document: {m.text}"

def Element.parse (s : String) : Except Fault Element :=
  (parseChars s.toList).mapError Malformed.fault

end Markup

end CoverageAccess
