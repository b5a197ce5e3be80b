import PaddingAudit.Survey.Basic

/-!
# Overlapping members

Members that share storage, as those declared not to need an address of their own may do, have sizes
that do not add up. They show in one of two ways: the sizes exceed the size of the record, or the
extents of two members meet.
-/

namespace PaddingAudit

open Debug

/-- The bytes from `start` up to, and without, `stop`. -/
structure Extent where
  start : Int
  stop : Int
  deriving DecidableEq, Repr, Inhabited

namespace Extent

/-- Extents are ordered by their start, and then by their end. -/
def precedes (a b : Extent) : Bool :=
  decide (a.start < b.start) || (a.start == b.start && decide (a.stop ≤ b.stop))

/-- Whether an extent starts before the end of what those in front of it cover. -/
def collides : (covered : Int) → List Extent → Bool
  | _, [] => false
  | covered, e :: es => decide (e.start < covered) || collides (max covered e.stop) es

/-- Whether extents meet each other or reach below the start of the record. -/
def overlap (extents : List Extent) : Bool :=
  collides 0 (extents.mergeSort precedes)

end Extent

namespace Survey

/-- The extent of a member, unless it is empty or its place is not known. -/
def extentOf {ε σ : Type} (member : Entry) (field : Field) : Action ε σ (Option Extent) := do
  match ← member.readInt .dataMemberLocation with
  | some start =>
    return if 0 < field.size then some { start := start, stop := start + field.size } else none
  | none => return none

/-- Whether members of a record share storage. -/
def hasOverlap {ε σ : Type} (s : Site) (fields : List Field) : Action ε σ Bool := do
  let size ← statedSize s
  if size < total (fields.map Field.size) then
    return true
  else
    let extents ← (s.members.zip fields).mapM fun (member, field) => extentOf member field
    return Extent.overlap (extents.filterMap id)

end Survey

end PaddingAudit
