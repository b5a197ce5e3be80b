import Mathlib.Algebra.BigOperators.Group.List.Basic
import Mathlib.Algebra.Ring.Int.Defs
import PaddingAudit.Proofs.Action
import PaddingAudit.Resolver

/-!
# Values of readings

Reading an attribute, following a reference and counting the elements of an array are quiet: each
gives a value that depends on the entries alone. The values of the last two are defined here.
-/

namespace PaddingAudit

open Debug PaddingAudit.Action

variable {ε σ : Type}

namespace Debug.Entry

theorem isWritable_of_nonNumeric? {e : Entry} {key : Key} {value : Value}
    (h : e.nonNumeric? key = some value) : value.isWritable := by
  unfold nonNumeric? at h
  split at h
  · split at h
    · rename_i hnone
      cases h
      exact Value.isWritable_of_asInt?_eq_none (Option.isNone_iff_eq_none.1 hnone)
    · cases h
  · cases h

theorem quiet_readInt (e : Entry) (key : Key) :
    Quiet (e.readInt key : Action ε σ (Option Int)) (e.int? key) := by
  unfold readInt
  split
  · rename_i value hvalue
    have haside : Event.isAside (.nonNumeric key e.offset value) :=
      isWritable_of_nonNumeric? hvalue
    exact (Quiet.log haside).bind (Quiet.pure _)
  · exact Quiet.pure _

theorem quiet_readAlignment (e : Entry) :
    Quiet (e.readAlignment : Action ε σ (Option Int)) e.explicitAlignment? :=
  (e.quiet_readInt .alignment).bind (Quiet.pure _)

theorem quiet_followType (e : Entry) (sites : List Site) :
    Quiet (e.followType sites : Action ε σ (Option Site)) (e.target? sites) := by
  unfold followType
  split
  · exact (Quiet.log rfl).bind (Quiet.pure _)
  · exact Quiet.pure _

theorem spells_readName (e : Entry) :
    Spells (e.readName : Action Failure σ (Option String)) e.nameIsWritable e.name? :=
  .write _ _

end Debug.Entry

theorem Debug.Site.spells_readQualifiedName (s : Site) :
    Spells (s.readQualifiedName : Action Failure σ (Option String)) s.qualifiedNameIsWritable
      s.qualifiedName? :=
  .write _ _

theorem Debug.CompilationUnit.spells_readName (u : CompilationUnit) :
    Spells (u.readName : Action Failure σ String) u.top.nameIsWritable u.displayName :=
  .write _ _

namespace Resolver

/-- The number of elements in a dimension: its count, or else the distance of its bounds. A number
that is negative or only known when the program runs counts as zero. -/
def plainDimension (e : Entry) : Int :=
  match e.attribute? .count, e.attribute? .upperBound with
  | some count, _ => if count.isDynamic then 0 else max ((e.int? .count).getD 0) 0
  | none, some bound =>
    if bound.isDynamic then 0
    else max ((e.int? .upperBound).getD (-1) - (e.int? .lowerBound).getD 0 + 1) 0
  | none, none => 0

/-- The number of elements of an array: the product over its dimensions. -/
def plainCount (s : Site) : Int :=
  ((s.children.filter Entry.isDimension).map plainDimension).prod

theorem plainDimension_nonneg (e : Entry) : 0 ≤ plainDimension e := by
  unfold plainDimension
  split <;> try split
  all_goals omega

theorem plainCount_nonneg (s : Site) : 0 ≤ plainCount s := by
  unfold plainCount
  induction s.children.filter Entry.isDimension with
  | nil => simp
  | cons e es ih =>
    rw [List.map_cons, List.prod_cons]
    exact Int.mul_nonneg (plainDimension_nonneg e) ih

theorem quiet_dimension (e : Entry) : Quiet (dimension e : Action ε σ Int) (plainDimension e) := by
  unfold dimension plainDimension
  cases e.attribute? .count with
  | some count =>
    by_cases h : count.isDynamic
    · simp only [if_pos h]
      exact Quiet.pure 0
    · simp only [if_neg h]
      exact (e.quiet_readInt .count).bind (Quiet.pure _)
  | none =>
    cases e.attribute? .upperBound with
    | some bound =>
      by_cases h : bound.isDynamic
      · simp only [if_pos h]
        exact Quiet.pure 0
      · simp only [if_neg h]
        exact (e.quiet_readInt .upperBound).bind
          ((e.quiet_readInt .lowerBound).bind (Quiet.pure _))
    | none => exact Quiet.pure 0

theorem quiet_elementCount (s : Site) :
    Quiet (elementCount s : Action ε σ Int) (plainCount s) := by
  unfold elementCount plainCount
  rw [List.prod_eq_foldl, List.foldl_map]
  exact Quiet.foldlM (g := fun n e => n * plainDimension e)
    (fun n e => (quiet_dimension e).bind (Quiet.pure _)) _ _

end Resolver

end PaddingAudit
