import PaddingAudit.Debug.Reading

/-!
# Layouts of types

Debugging information gives the size of most types and the alignment of few. The resolver derives
both as the platform would have it:

* a scalar is aligned to its size, and so is a pointer, which has the size of a word by default;
* an alias or a qualified type has the layout of the type it refers to;
* an array has the size of all its elements and the alignment of one, a vector its own size as
  alignment;
* a structure, class or union is aligned as the most demanding of its members and base classes.

An alignment that comes from a size is capped by the platform; one that the program asks for
replaces it and is never capped. Layouts are kept in a cache by the offset of their type. A chain of
references that leads back to itself, or goes deeper than the limit, ends in `void`.
-/

namespace PaddingAudit

open Debug

/-- What layouts depend on: the platform and the types of the program. -/
structure Resolver where
  platform : Platform
  sites : List Site
  deriving Inhabited

namespace Resolver

/-- How many types deep a chain of references may go. -/
def maxDepth : Nat := 64

/-- The number of elements in a dimension, zero where it is not known before the program runs. -/
def dimension {ε σ : Type} (e : Entry) : Action ε σ Int := do
  match e.attribute? .count with
  | some count =>
    if count.isDynamic then
      return 0
    else
      let n ← e.readInt .count
      return max (n.getD 0) 0
  | none =>
    match e.attribute? .upperBound with
    | some bound =>
      if bound.isDynamic then
        return 0
      else
        let upper ← e.readInt .upperBound
        let lower ← e.readInt .lowerBound
        return max (upper.getD (-1) - lower.getD 0 + 1) 0
    | none => return 0

/-- The number of elements in all dimensions of an array together. -/
def elementCount {ε σ : Type} (s : Site) : Action ε σ Int :=
  (s.children.filter Entry.isDimension).foldlM (fun n e => do return n * (← dimension e)) 1

section Derived

variable (r : Resolver) (visit : Site → Action Failure Cache Layout)

def targetLayout (e : Entry) : Action Failure Cache Layout := do
  match ← e.followType r.sites with
  | some s => visit s
  | none => return .void

/-- The layout of an array. A size that is given counts for more than the elements do. -/
def arrayLayout (s : Site) (byteSize : Option Int) : Action Failure Cache Layout := do
  let element ← r.targetLayout visit s.toEntry
  let count ← elementCount s
  let size := byteSize.getD (element.size * count)
  if s.flag .vector then
    return { size := size, alignment := max size 1 }
  else
    return { size := size, alignment := element.alignment }

/-- The alignment of an aggregate so far, together with the needs of one more child. -/
def widen (alignment : Int) (child : Entry) : Action Failure Cache Int := do
  if child.isDataMember || child.isBaseClass then
    match ← child.followType r.sites with
    | some s =>
      let layout ← visit s
      let explicit ← child.readAlignment
      return max (max alignment layout.alignment) (explicit.getD 1)
    | none => return alignment
  else
    return alignment

/-- The alignment that the members and base classes of an aggregate need. -/
def memberAlignment (s : Site) : Action Failure Cache Int :=
  s.children.foldlM (r.widen visit) 1

/-- The layout of a type by its kind. `visit` gives the layouts of the types it refers to. -/
def derive (s : Site) : Action Failure Cache Layout := do
  let byteSize ← s.readInt .byteSize
  match s.kind with
  | .scalar =>
    match byteSize with
    | some size => return r.platform.selfAligned size
    -- An enumeration may name its underlying type only.
    | none => r.targetLayout visit s.toEntry
  | .pointer => return r.platform.selfAligned (byteSize.getD r.platform.wordSize)
  | .transparent => r.targetLayout visit s.toEntry
  | .array => r.arrayLayout visit s byteSize
  | .aggregate =>
    let alignment ← r.memberAlignment visit s
    return { size := byteSize.getD 0, alignment := alignment }
  | .other =>
    Action.log (.unhandledTag s.toEntry)
    return r.platform.selfAligned (byteSize.getD 0)

end Derived

/-! ### Resolution -/

def fromCache (offset : Int) : Action Failure Cache (Option Layout) := fun s =>
  .ok (s.state.get offset).1 { s with state := (s.state.get offset).2 }

def keep (offset : Int) (layout : Layout) : Action Failure Cache Unit := do
  Action.modifyState fun cache => cache.put offset layout
  if (← Action.state).overdrawn then
    Action.fail .overdrawnCache

/-- The layout of a type out of the cache or else by `compute`. The type must not be among those
whose resolution is pending. -/
def resolveUnless (pending : List Int) (s : Site) (compute : Action Failure Cache Layout) :
    Action Failure Cache Layout := do
  match ← fromCache s.offset with
  | some layout => return layout
  | none =>
    if pending.contains s.offset then
      Action.log (.circularReference s.offset)
      return .void
    else
      compute

/-- Derives the layout of a type, with the alignment the program asks for, and keeps it. It is kept
even if it cannot be told. -/
def compute (r : Resolver) (visit : Site → Action Failure Cache Layout) (s : Site) :
    Action Failure Cache Layout := do
  let derived ← r.derive visit s
  let explicit ← s.readAlignment
  let layout := { derived with alignment := explicit.getD derived.alignment }
  keep s.offset layout
  Action.tell (.resolved s.toEntry layout)
  return layout

/-- The layout of a type from which chains may still go `depth` types deep. -/
def resolveWithin (r : Resolver) : (depth : Nat) → (pending : List Int) → Site →
    Action Failure Cache Layout
  | 0, pending, s => resolveUnless pending s do
    Action.log (.depthReached maxDepth s.offset)
    return .void
  | depth + 1, pending, s =>
    resolveUnless pending s <|
      r.compute (r.resolveWithin depth (s.offset :: pending)) s

/-- The layout of a type, or of `void` where there is none. -/
def resolve (r : Resolver) : Option Site → Action Failure Cache Layout
  | some s => r.resolveWithin maxDepth [] s
  | none => return .void

/-- The layout of a data member, which may ask for more alignment than its type. -/
def resolveMember (r : Resolver) (member : Entry) : Action Failure Cache Layout := do
  let layout ← r.resolve (← member.followType r.sites)
  match ← member.readAlignment with
  | some explicit => return { layout with alignment := max layout.alignment explicit }
  | none => return layout

end Resolver

end PaddingAudit
