import CoverageAccess.Box.Basic
import CoverageAccess.Markup.Document
import CoverageAccess.Time.Position
/-!
# Envelopes

Boxes as elements of documents. `Box.envelope` writes the envelope with axis names and period, and
`Box.ofEnvelope` reads it; `Box.boundingBox` and `Box.geographic` are the two shorter forms of
service descriptions.
-/

namespace CoverageAccess

namespace Box

/-- Why an element is no envelope. -/
inductive EnvelopeRefusal where
  | noEnvelope
  | noLabels
  | noCorner (name : String)
  | number (corner text : String)
  | noBegin
  | noEnd
  deriving DecidableEq, Repr

/-- The fault of an element that is no envelope. -/
def EnvelopeRefusal.fault : EnvelopeRefusal → Fault
  | .noEnvelope => .missing "Envelope" "Expected an Envelope or EnvelopeWithTimePeriod"
  | .noLabels => .missing "axisLabels" "Envelope has no axisLabels"
  | .noCorner name => .missing name s!"Envelope has no {name}"
  | .number corner text => .invalid corner s!"Invalid number '{text}'"
  | .noBegin => .missing "beginPosition" "Time period has no begin"
  | .noEnd => .missing "endPosition" "Time period has no end"

open Markup

/-- The envelope element: the element itself by its name, or else its first child with the one or
the other name. -/
def envelopeIn? (e : Element) : Option Element :=
  if e.name = "Envelope" ∨ e.name = "EnvelopeWithTimePeriod" then some e
  else (e.child? "EnvelopeWithTimePeriod").or (e.child? "Envelope")

/-- The numbers of a list of words. -/
def cornerNumbers (corner : String) : List String → Except EnvelopeRefusal (List Float)
  | [] => .ok []
  | w :: ws =>
    match Number.real? w with
    | some x => (cornerNumbers corner ws).map (x :: ·)
    | none => .error (.number corner w)

def corner (e : Element) (name : String) : Except EnvelopeRefusal (List Float) :=
  match e.childText? name with
  | some s => cornerNumbers name (Text.words s)
  | none => .error (.noCorner name)

/-- The period of an envelope. Its two positions are there both or not at all. -/
def envelopePeriod (e : Element) : Except Fault (Option Period) :=
  match e.childText? "beginPosition", e.childText? "endPosition" with
  | some b, some f => do
    let start ← Time.parsePosition b
    let finish ← Time.parsePosition f
    return some (← Period.make start finish)
  | none, none => .ok none
  | some _, none => .error EnvelopeRefusal.noEnd.fault
  | none, some _ => .error EnvelopeRefusal.noBegin.fault

/-- The axis names and corners of an envelope. -/
def envelopeCorners (e : Element) :
    Except EnvelopeRefusal (List String × List Float × List Float) :=
  match e.attribute? "axisLabels" with
  | none => .error .noLabels
  | some s => do
    let lower ← corner e "lowerCorner"
    let upper ← corner e "upperCorner"
    return (Text.words s, lower, upper)

/-- The box of an envelope element, or of an element that holds one. -/
def ofEnvelope (e : Element) : Except Fault Box :=
  match envelopeIn? e with
  | none => .error EnvelopeRefusal.noEnvelope.fault
  | some e => do
    let (labels, lower, upper) ← (envelopeCorners e).mapError EnvelopeRefusal.fault
    let b ← (ofCorners labels lower upper (e.attribute? "srsName")).mapError Refusal.fault
    return { b with period := ← envelopePeriod e }

def cornerText (xs : List Float) : String :=
  Text.join " " (xs.map Number.plain)

/-- The envelope element of a box. -/
def envelope (b : Box) : Node :=
  let tag := if b.period.isSome then "gml:EnvelopeWithTimePeriod" else "gml:Envelope"
  let system := b.crs.toList.map fun c => ("srsName", c)
  let positions := match b.period with
    | some p =>
      [Node.leaf "gml:beginPosition" p.start.gml, Node.leaf "gml:endPosition" p.finish.gml]
    | none => []
  .element tag
    (system ++ [("axisLabels", Text.join " " b.labels),
      ("srsDimension", Number.ofNatural b.axes.length)])
    ([Node.leaf "gml:lowerCorner" (cornerText b.lowerCorner),
      Node.leaf "gml:upperCorner" (cornerText b.upperCorner)] ++ positions)

def boundingBox (b : Box) : Node :=
  let system := b.crs.toList.map fun c => ("crs", c)
  .element "ows:BoundingBox" (system ++ [("dimensions", Number.ofNatural b.axes.length)])
    [Node.leaf "ows:LowerCorner" (cornerText b.lowerCorner),
      Node.leaf "ows:UpperCorner" (cornerText b.upperCorner)]

/-- The first axis whose name begins with `start`, whatever the case of its letters. -/
def axisStarting? (b : Box) (start : String) : Option Axis :=
  b.axes.find? fun a => Text.startsWith start (Text.lower a.name)

/-- The geographic bounding box, longitude first, of a box with a longitude and a latitude. -/
def geographic (b : Box) : Option Node := do
  let lon ← axisStarting? b "lon"
  let lat ← axisStarting? b "lat"
  return .element "ows:WGS84BoundingBox" []
    [Node.leaf "ows:LowerCorner" (cornerText [lon.lower, lat.lower]),
      Node.leaf "ows:UpperCorner" (cornerText [lon.upper, lat.upper])]

end Box

end CoverageAccess
