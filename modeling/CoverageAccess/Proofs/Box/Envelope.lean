import CoverageAccess.Proofs.Box.Union
import CoverageAccess.Proofs.Markup.Lookup
import CoverageAccess.Proofs.Number.Signed
import CoverageAccess.Proofs.Time.Position
/-!
# Envelopes that were written

The envelope of a box is read back as the box, except that the ends of its period lose the parts of
their milliseconds (`reread_envelope`). Axis names must be words and bounds must be numbers, but any
text may name the reference system, a box may have no axes, and years may have more than four digits.
-/

namespace CoverageAccess

open Markup Text

namespace Period

/-- The period without the parts of the milliseconds of its ends. -/
def toMilli (p : Period) : Period :=
  ⟨p.start.toMilli, p.finish.toMilli⟩

theorem Constructed.toMilli {p : Period} (hp : p.Constructed) : p.toMilli.Constructed :=
  constructed_iff.2 (Time.Instant.toMilli_le (constructed_iff.1 hp))

end Period

namespace Box

/-- The box without the parts of the milliseconds of its period. -/
def toMilli (b : Box) : Box :=
  { b with period := b.period.map Period.toMilli }

/-- A box that an envelope can hold: the axis names are words, and the years of the period are not
negative. -/
structure Enclosable (b : Box) : Prop extends b.Regular where
  words : ∀ l ∈ b.labels, IsWord l
  years : ∀ p, b.period = some p → 0 ≤ p.start.date.year ∧ 0 ≤ p.finish.date.year

/-- The box that is read from the written envelope. -/
def reread (b : Box) : Except Fault Box := do
  ofEnvelope (← Element.parse b.envelope.render)

/-- The attributes of the envelope. -/
def envelopeAttributes (b : Box) : List (String × String) :=
  b.crs.toList.map (fun c => ("srsName", c)) ++
    [("axisLabels", join " " b.labels), ("srsDimension", Number.ofNatural b.axes.length)]

/-- The names and texts of what stands in the envelope. -/
def envelopeLeaves (b : Box) : List (String × String) :=
  [("lowerCorner", cornerText b.lowerCorner), ("upperCorner", cornerText b.upperCorner)] ++
    match b.period with
    | some p => [("beginPosition", p.start.gml), ("endPosition", p.finish.gml)]
    | none => []

/-- The element that the envelope is read as. -/
def envelopeElement (b : Box) : Element where
  name := if b.period.isSome then "EnvelopeWithTimePeriod" else "Envelope"
  attributes := b.envelopeAttributes
  children := b.envelopeLeaves.map fun l => .leaf l.1 l.2
  text := ""

section Written

variable (b : Box)

theorem envelope_eq : b.envelope = .element
    (if b.period.isSome then "gml:EnvelopeWithTimePeriod" else "gml:Envelope")
      b.envelopeAttributes (b.envelopeLeaves.map fun l => .leaf ("gml:" ++ l.1) l.2) := by
  rw [envelope, envelopeLeaves]
  cases b.period <;> rfl

theorem fst_envelopeAttributes :
    (b.envelopeAttributes.map Prod.fst).Sublist ["srsName", "axisLabels", "srsDimension"] := by
  rw [envelopeAttributes]
  cases b.crs with
  | none => exact List.sublist_cons_self _ _
  | some c => exact List.Sublist.refl _

theorem areAttributes_envelope : AreAttributes b.envelopeAttributes where
  names a ha := by
    have hnames : ∀ n ∈ ["srsName", "axisLabels", "srsDimension"], IsName n := by decide
    exact hnames _ (b.fst_envelopeAttributes.mem (List.mem_map_of_mem ha))
  nodup := b.fst_envelopeAttributes.nodup (by decide)

theorem fst_envelopeLeaves : (b.envelopeLeaves.map Prod.fst).Sublist
    ["lowerCorner", "upperCorner", "beginPosition", "endPosition"] := by
  rw [envelopeLeaves]
  cases b.period with
  | none => exact List.sublist_append_left ["lowerCorner", "upperCorner"] _
  | some p => exact List.Sublist.refl _

theorem wellNamed_envelope : b.envelope.WellNamed := by
  have hnames : ∀ n ∈ ["lowerCorner", "upperCorner", "beginPosition", "endPosition"],
      IsName ("gml:" ++ n) := by decide
  rw [envelope_eq]
  refine ⟨?_, b.areAttributes_envelope, Node.allWellNamed_iff.2 fun n hn => ?_⟩
  · split <;> decide
  · obtain ⟨l, hl, rfl⟩ := List.mem_map.1 hn
    exact Node.wellNamed_leaf (hnames _ (b.fst_envelopeLeaves.mem (List.mem_map_of_mem hl))) l.2

theorem element?_envelope : b.envelope.element? = some b.envelopeElement := by
  have hattributes : ∀ n ∈ ["srsName", "axisLabels", "srsDimension"],
      declaresNamespace n.toList = false ∧ localName n.toList = n.toList := by decide
  have hleaves : ∀ n ∈ ["lowerCorner", "upperCorner", "beginPosition", "endPosition"],
      String.ofList (localName ("gml:" ++ n).toList) = n := by decide
  have hread : ∀ l ∈ b.envelopeLeaves,
      (Node.leaf ("gml:" ++ l.1) l.2).element? = some (.leaf l.1 l.2) := by
    intro l hl
    rw [Node.element?_leaf, hleaves _ (b.fst_envelopeLeaves.mem (List.mem_map_of_mem hl))]
  have hsome : ∀ n ∈ b.envelopeLeaves.map (fun l => Node.leaf ("gml:" ++ l.1) l.2),
      n.element?.isSome := by
    intro n hn
    obtain ⟨l, hl, rfl⟩ := List.mem_map.1 hn
    rw [hread l hl]
    rfl
  rw [envelope_eq, Node.element?_branch hsome, Node.elements_map hread,
    map_withoutNamespaces fun a ha => hattributes _ (b.fst_envelopeAttributes.mem
      (List.mem_map_of_mem ha)), envelopeElement]
  congr 2
  split <;> rfl

theorem parse_envelope : Element.parse b.envelope.render = .ok b.envelopeElement :=
  parse_render b.wellNamed_envelope b.element?_envelope

end Written

theorem cornerNumbers_plain {xs : List Float} (h : ∀ x ∈ xs, x.isNaN = false) (corner : String) :
    cornerNumbers corner (xs.map Number.plain) = .ok xs := by
  induction xs with
  | nil => rfl
  | cons x xs ih =>
      rw [List.map_cons, cornerNumbers, Number.real?_plain_of_isNaN (h x List.mem_cons_self),
        ih fun y hy => h y (List.mem_cons_of_mem x hy)]
      rfl

theorem words_cornerText {xs : List Float} (h : ∀ x ∈ xs, x.isNaN = false) :
    Text.words (cornerText xs) = xs.map Number.plain := by
  apply words_join
  intro w hw
  obtain ⟨x, hx, rfl⟩ := List.mem_map.1 hw
  exact Number.isWord_plain (h x hx)

section Lookups

variable {b : Box}

theorem attribute?_labels (b : Box) :
    b.envelopeElement.attribute? "axisLabels" = some (join " " b.labels) := by
  rw [Element.attribute?, envelopeElement, envelopeAttributes]
  cases b.crs <;> rfl

theorem attribute?_system (b : Box) : b.envelopeElement.attribute? "srsName" = b.crs := by
  rw [Element.attribute?, envelopeElement, envelopeAttributes]
  cases b.crs <;> rfl

theorem childText?_envelopeElement (b : Box) (name : String) :
    b.envelopeElement.childText? name =
      (b.envelopeLeaves.find? fun l => l.1 == name).map fun l => trim l.2 := by
  have htext : (fun c : Element => trim c.text) ∘ (fun l : String × String => .leaf l.1 l.2) =
      fun l => trim l.2 :=
    funext fun l => Element.trim_text_leaf l.1 l.2
  rw [Element.childText?, Element.child?, envelopeElement, List.find?_map, Option.map_map, htext]
  rfl

theorem corner_envelopeElement {xs : List Float} {name : String} (hx : ∀ x ∈ xs, x.isNaN = false)
    (hfound : (b.envelopeLeaves.find? fun l => l.1 == name) = some (name, cornerText xs)) :
    corner b.envelopeElement name = .ok xs := by
  rw [corner, childText?_envelopeElement, hfound, Option.map_some]
  dsimp only
  rw [words_trim, words_cornerText hx, cornerNumbers_plain hx]

theorem envelopeCorners_envelopeElement (hb : b.Enclosable) :
    envelopeCorners b.envelopeElement = .ok (b.labels, b.lowerCorner, b.upperCorner) := by
  have hlower : ∀ x ∈ b.lowerCorner, x.isNaN = false := by
    intro x hx
    obtain ⟨a, ha, rfl⟩ := List.mem_map.1 hx
    exact (hb.numeric a ha).lower
  have hupper : ∀ x ∈ b.upperCorner, x.isNaN = false := by
    intro x hx
    obtain ⟨a, ha, rfl⟩ := List.mem_map.1 hx
    exact (hb.numeric a ha).upper
  rw [envelopeCorners, attribute?_labels]
  dsimp only
  rw [corner_envelopeElement hlower rfl, corner_envelopeElement hupper rfl, ok_bind, ok_bind,
    words_join hb.words]
  rfl

/-- The period is made again from its written ends. -/
theorem envelopePeriod_envelopeElement (hb : b.Enclosable) :
    envelopePeriod b.envelopeElement = match b.period with
      | none => .ok none
      | some p => (Period.make p.start.toMilli p.finish.toMilli).map some := by
  rw [envelopePeriod, childText?_envelopeElement, childText?_envelopeElement, envelopeLeaves]
  cases hperiod : b.period with
  | none => rfl
  | some p =>
      obtain ⟨hstart, hfinish⟩ := hb.years p hperiod
      change (Time.parsePosition (trim p.start.gml) >>= fun start =>
        Time.parsePosition (trim p.finish.gml) >>= fun finish =>
          Period.make start finish >>= fun q => pure (some q)) = _
      rw [Time.trim_gml, Time.trim_gml, Time.parsePosition_gml hstart, ok_bind,
        Time.parsePosition_gml hfinish, ok_bind]
      rfl

end Lookups

section Reread

variable {b : Box}

theorem Enclosable.toMilli (hb : b.Enclosable) : b.toMilli.Enclosable where
  nodup := hb.nodup
  numeric := hb.numeric
  words := hb.words
  years p hp := by
    obtain ⟨q, hq, rfl⟩ := Option.map_eq_some_iff.1 hp
    obtain ⟨hstart, hfinish⟩ := hb.years q hq
    exact ⟨(Time.Instant.date_toMilli _).symm ▸ hstart, (Time.Instant.date_toMilli _).symm ▸ hfinish⟩

theorem ofCorners_corners (hb : b.labels.Nodup) :
    ofCorners b.labels b.lowerCorner b.upperCorner b.crs = .ok ⟨b.axes, none, b.crs⟩ := by
  rw [ofCorners_eq_ok_iff, zipAxes_corners]
  exact ⟨by simp [labels, lowerCorner], by simp [labels, upperCorner], hb, rfl⟩

theorem envelopeIn?_envelopeElement (b : Box) :
    envelopeIn? b.envelopeElement = some b.envelopeElement := by
  refine if_pos ?_
  rw [envelopeElement]
  dsimp only
  split
  · exact .inr rfl
  · exact .inl rfl

/-- What is read is the box with its period made again. -/
theorem reread_eq (hb : b.Enclosable) :
    b.reread = match b.period with
      | none => .ok b
      | some p => (Period.make p.start.toMilli p.finish.toMilli).map b.withPeriod := by
  rw [reread, parse_envelope, ok_bind, ofEnvelope, envelopeIn?_envelopeElement]
  dsimp only
  rw [envelopeCorners_envelopeElement hb, mapError_ok, ok_bind, attribute?_system]
  dsimp only
  rw [ofCorners_corners hb.nodup, mapError_ok, ok_bind, envelopePeriod_envelopeElement hb]
  obtain ⟨axes, period, crs⟩ := b
  cases period with
  | none => rfl
  | some p =>
      dsimp only
      cases Period.make p.start.toMilli p.finish.toMilli <;> rfl

theorem reread_eq_ok (hb : b.Enclosable) (hp : ∀ p, b.period = some p → p.Constructed) :
    b.reread = .ok b.toMilli := by
  rw [reread_eq hb, toMilli]
  obtain ⟨axes, period, crs⟩ := b
  cases period with
  | none => rfl
  | some p =>
      have hmake : Period.make p.start.toMilli p.finish.toMilli = .ok p.toMilli :=
        Period.make_eq_ok_iff.2 ⟨Period.constructed_iff.1 (hp p rfl).toMilli, rfl⟩
      dsimp only
      rw [hmake]
      rfl

/-- An envelope with the ends of its period in the wrong order is refused. -/
theorem reread_eq_error {p : Period} (hb : b.Enclosable) (hperiod : b.period = some p)
    (hp : ¬p.toMilli.Constructed) :
    b.reread = .error (Period.reversed p.start.toMilli p.finish.toMilli) := by
  have hlt : p.finish.toMilli.lt p.start.toMilli = true := by
    rw [Period.constructed_iff, Time.Instant.le_iff, Int.not_le] at hp
    exact Time.Instant.lt_iff.2 hp
  rw [reread_eq hb, hperiod]
  dsimp only
  rw [Period.make, if_pos hlt]
  rfl

end Reread

end Box

end CoverageAccess
