import CoverageAccess.Box.Basic
/-!
# Relations between boxes

Two boxes are compared only if they have the same axis names, in any order, and do not name
different reference systems. Then every axis of the one is paired with the axis of the same name of
the other. The time is compared only if both boxes have a period.
-/

namespace CoverageAccess

namespace Box

def systemConflict (b c : Box) : Option Refusal :=
  match b.crs, c.crs with
  | some m, some t => if m = t then none else some (.systems m t)
  | _, _ => none

def sameLabels (b c : Box) : Bool :=
  b.labels.all (fun n => n ∈ c.labels) && c.labels.all (fun n => n ∈ b.labels)

def conflict (b c : Box) : Option Refusal :=
  (systemConflict b c).or (if sameLabels b c then none else some (.axes b.labels c.labels))

/-- The axes of the first box, each with the axis of the same name of the other. -/
def paired (b c : Box) : List (Axis × Axis) :=
  b.axes.filterMap fun a => (c.axis? a.name).map fun o => (a, o)

/-- What `f` answers for two boxes that can be compared. -/
def compared (b c : Box) (f : List (Axis × Axis) → α) : Except Refusal α :=
  match conflict b c with
  | some r => .error r
  | none => .ok (f (paired b c))

/-- A relation of periods, which holds if one of the boxes has no period. -/
def onPeriods (b c : Box) (r : Period → Period → Bool) : Bool :=
  match b.period, c.period with
  | some p, some q => r p q
  | _, _ => true

/-- The boxes have more than a boundary in common on every axis and in time. -/
def intersects (b c : Box) : Except Refusal Bool :=
  compared b c fun pairs =>
    pairs.all (fun e => e.1.overlaps e.2) && onPeriods b c Period.overlaps

/-- The other box lies inside. On the axes it may touch the bounds, in time it may not. -/
def contains (b c : Box) : Except Refusal Bool :=
  compared b c fun pairs =>
    pairs.all (fun e => e.1.covers e.2) && onPeriods b c Period.surrounds

/-- The period that spans both, when both boxes have one. -/
def periodHull (b c : Box) : Option Period :=
  match b.period, c.period with
  | some p, some q => some (p.hull q)
  | _, _ => none

/-- The least box around both, with the axes in the order of the first. -/
def union (b c : Box) : Except Refusal Box :=
  compared b c fun pairs =>
    { axes := pairs.map fun e => e.1.hull e.2
      period := periodHull b c
      crs := b.crs.or c.crs }

end Box

end CoverageAccess
