import Mathlib.Algebra.BigOperators.Group.List.Basic
import PaddingAudit.Proofs.Query

/-!
# Arrays of arrays

An array can list all its dimensions, or have one and elements that are arrays in turn. Both come to
the same plain layout, whatever the order of the dimensions: the size of an element is multiplied by
all counts, and its alignment stays. What differs are the layouts on the way, one for each array
that is an element of another. A resolver tells each layout that it comes to, and so it can fail at
a nesting while it answers for the array with all dimensions.
-/

namespace PaddingAudit

open Debug

/-- The layout of as many elements as some dimensions have together. -/
def Layout.times (l : Layout) (dims : List Entry) : Layout :=
  { l with size := l.size * (dims.map Resolver.plainDimension).prod }

namespace Layout

@[simp]
theorem times_nil (l : Layout) : l.times [] = l := by
  simp [times]

theorem times_times_singleton (l : Layout) (c : Entry) (cs : List Entry) :
    (l.times cs).times [c] = l.times (c :: cs) := by
  simp only [times, List.map_cons, List.map_nil, List.prod_cons, List.prod_nil, mk.injEq, and_true,
    Int.mul_one, Int.mul_assoc]
  rw [Int.mul_comm (cs.map _).prod]

theorem times_eq_of_perm {cs ds : List Entry} (h : cs.Perm ds) (l : Layout) :
    l.times cs = l.times ds := by
  rw [times, times, (h.map _).prod_eq]

end Layout

namespace Resolver

variable {r : Resolver} {s : Site} {element? target? : Option Site} {dims : List Entry}
  {l : Layout} {limited : Bool} {capacity : Int} {n : Nat}

/-- An array that says nothing of its own size and alignment. Its dimensions have the attributes of
those given; other children it may have any. -/
structure BareArray (r : Resolver) (element? : Option Site) (dims : List Entry) (s : Site) :
    Prop where
  kind_eq : s.kind = .array
  byteSize_eq : s.int? .byteSize = none
  alignment_eq : s.explicitAlignment? = none
  vector_eq : s.flag .vector = false
  target_eq : s.target? r.sites = element?
  attributes_eq :
    (s.children.filter Entry.isDimension).map Entry.attributes = dims.map Entry.attributes

/-- Arrays of one dimension each, the first one outermost. The elements of the last one are of the
type given, and with no dimensions there is only this type. -/
inductive Nesting (r : Resolver) (element? : Option Site) : List Entry → Option Site → Prop
  | nil : Nesting r element? [] element?
  | cons {s : Site} {inner? : Option Site} {c : Entry} {cs : List Entry}
      (h : r.BareArray inner? [c] s) (hinner : Nesting r element? cs inner?) :
      Nesting r element? (c :: cs) (some s)

/-- The layout of an element, which is `void` if the array does not say of what type it is. -/
def ElementLayout (r : Resolver) : Option Site → Layout → Prop
  | none, l => l = .void
  | some t, l => r.Plain t l

theorem exists_elementLayout (h : ∀ t ∈ element?, r.Within n t) :
    ∃ l, r.ElementLayout element? l := by
  cases element? with
  | none => exact ⟨.void, rfl⟩
  | some t => exact (h t rfl).exists_plain

/-- Of a dimension nothing counts but its attributes. -/
theorem map_plainDimension_congr {cs ds : List Entry}
    (h : cs.map Entry.attributes = ds.map Entry.attributes) :
    cs.map plainDimension = ds.map plainDimension := by
  have hread : ∀ es : List Entry, es.map plainDimension =
      (es.map Entry.attributes).map fun attributes =>
        plainDimension { tag := none, offset := 0, attributes := attributes } := by
    intro es
    rw [List.map_map]
    rfl
  rw [hread cs, h, ← hread ds]

namespace BareArray

theorem followed_eq (h : r.BareArray element? dims s) : r.followed s = element?.toList := by
  simp only [followed, h.kind_eq, h.target_eq]

theorem layout_eq (h : r.BareArray element? dims s) (l : Layout) :
    demanded s (plainArray s l) = l.times dims := by
  have hcount : plainCount s = (dims.map plainDimension).prod := by
    rw [plainCount, map_plainDimension_congr h.attributes_eq]
  simp [demanded, plainArray, Layout.times, h.alignment_eq, h.byteSize_eq, h.vector_eq, hcount]

theorem plain (h : r.BareArray element? dims s) (hl : r.ElementLayout element? l) :
    r.Plain s (l.times dims) := by
  rw [← h.layout_eq]
  cases element? with
  | none =>
    obtain rfl : l = .void := hl
    exact .voidArray h.kind_eq h.target_eq
  | some t => exact .array h.kind_eq h.target_eq hl

theorem within (h : r.BareArray element? dims s) (hn : ∀ t ∈ element?, r.Within n t) :
    r.Within (n + 1) s := by
  intro t ht
  rw [h.followed_eq] at ht
  exact hn t (by simpa using ht)

theorem tellable_iff (h : r.BareArray element? dims s) (hl : r.ElementLayout element? l) :
    r.Tellable limited s ↔
      (∀ t ∈ element?, r.Tellable limited t) ∧ ((l.times dims).isWritable || !limited) := by
  rw [Resolver.tellable_iff (h.plain hl), h.followed_eq, and_comm]
  simp only [Option.mem_toList, Option.mem_def]

end BareArray

theorem forall_mem_some_tellable_iff :
    (∀ t ∈ some s, r.Tellable limited t) ↔ r.Tellable limited s := by
  simp only [Option.mem_some_iff, forall_eq']

namespace Nesting

/-- Each array around another multiplies its size by one more count. -/
theorem elementLayout (h : r.Nesting element? dims target?) (hl : r.ElementLayout element? l) :
    r.ElementLayout target? (l.times dims) := by
  induction h with
  | nil => rwa [Layout.times_nil]
  | cons h _ ih =>
    rw [← Layout.times_times_singleton]
    exact h.plain ih

theorem within (h : r.Nesting element? dims target?) (hn : ∀ t ∈ element?, r.Within n t) :
    ∀ t ∈ target?, r.Within (n + dims.length) t := by
  induction h with
  | nil => exact hn
  | cons h _ ih =>
    rintro t ⟨⟩
    exact h.within ih

/-- The layouts that are told for a nesting are those of the arrays that are left when outer ones
are taken away. -/
theorem tellable_iff (h : r.Nesting element? dims target?) (hl : r.ElementLayout element? l) :
    (∀ t ∈ target?, r.Tellable limited t) ↔
      (∀ t ∈ element?, r.Tellable limited t) ∧
        ∀ inner, inner <:+ dims → inner ≠ [] → (l.times inner).isWritable || !limited := by
  induction h with
  | nil =>
    refine ⟨fun h => ⟨h, fun inner hinner hne => ?_⟩, And.left⟩
    exact absurd (List.suffix_nil.1 hinner) hne
  | @cons s inner? c cs h hinner ih =>
    -- The array around a nesting adds its own layout to those told, and it is the longest suffix.
    rw [forall_mem_some_tellable_iff, h.tellable_iff (hinner.elementLayout hl), ih,
      Layout.times_times_singleton]
    constructor
    · rintro ⟨⟨helement, hrest⟩, htold⟩
      refine ⟨helement, fun inner hsuffix hne => ?_⟩
      rcases List.suffix_cons_iff.1 hsuffix with rfl | hsuffix
      · exact htold
      · exact hrest inner hsuffix hne
    · rintro ⟨helement, hall⟩
      exact ⟨⟨helement, fun inner hsuffix => hall inner (hsuffix.trans (List.suffix_cons c cs))⟩,
        hall _ List.suffix_rfl (by simp)⟩

end Nesting

/-! ### Answers -/

/-- A resolver that was not asked before answers with a layout under a condition, and fails for a
layout too long to be told if the condition is not met. -/
def AnswersIf (r : Resolver) (limited : Bool) (capacity : Int) (s : Site) (l : Layout)
    (condition : Prop) : Prop :=
  (condition → r.answer (start limited capacity) s = .ok l) ∧
    (¬ condition → r.answer (start limited capacity) s = .error .unwritable)

/-- An array with several dimensions is laid out as arrays of one dimension that are nested in each
other, and as the arrays with the same dimensions in another order: with the size of an element
multiplied by all counts, and its alignment. A resolver that was not asked before answers for each
of them with this layout, as long as it can tell the layouts that it comes to. These are the ones
that the element depends on, that of the array itself, and those of the arrays nested in it. Without
a limit on decimal text it can tell all. -/
theorem answersIf_array_and_nesting (r : Resolver) (limited : Bool) (capacity : Int)
    (hc : 0 ≤ capacity) (element? : Option Site) (height : Nat)
    (hholds : ∀ t ∈ element?, r.Holds t) (hheight : ∀ t ∈ element?, r.Within height t)
    (dims : List Entry) (hdims : dims ≠ []) (hdepth : dims.length + height ≤ maxDepth) :
    ∃ l, r.ElementLayout element? l ∧
      (∀ t ∈ element?, r.AnswersIf limited capacity t l (r.Tellable limited t)) ∧
      ∀ order : List Entry, order.Perm dims →
        (∀ s, r.Holds s → r.BareArray element? order s →
          r.AnswersIf limited capacity s (l.times dims)
            ((∀ t ∈ element?, r.Tellable limited t) ∧
              ((l.times dims).isWritable || !limited))) ∧
        ∀ s, r.Holds s → r.Nesting element? order (some s) →
          r.AnswersIf limited capacity s (l.times dims)
            ((∀ t ∈ element?, r.Tellable limited t) ∧
              ∀ inner, inner <:+ order → inner ≠ [] → (l.times inner).isWritable || !limited) := by
  obtain ⟨l, hl⟩ := exists_elementLayout hheight
  have hlength := List.length_pos_of_ne_nil hdims
  refine ⟨l, hl, fun t ht => ?_, fun order horder => ⟨fun s hs harray => ?_, fun s hs hnest => ?_⟩⟩
  · obtain rfl := Option.mem_def.1 ht
    exact ((hheight t rfl).mono (by omega)).answer_start hc (hholds t rfl) hl
  · -- As there is a dimension, a single array goes no deeper than the nesting would.
    rw [← Layout.times_eq_of_perm horder, AnswersIf, ← harray.tellable_iff hl]
    exact ((harray.within hheight).mono (by omega)).answer_start hc hs (harray.plain hl)
  · have hwithin := hnest.within hheight s rfl
    rw [horder.length_eq] at hwithin
    rw [← Layout.times_eq_of_perm horder, AnswersIf, ← hnest.tellable_iff hl,
      forall_mem_some_tellable_iff]
    exact (hwithin.mono (by omega)).answer_start hc hs (hnest.elementLayout hl)

def dimensionOf (count : Int) : Entry where
  tag := some .subrangeType
  offset := 8
  attributes := [(.count, { value := .int count })]

/-- An array at an offset, with elements of the type at another. -/
def arrayOf (offset type : Int) (children : List Entry) : Site where
  tag := some .arrayType
  offset := offset
  attributes := [(.type, { value := .int type, form := some "DW_FORM_ref4" })]
  children := children

def cellType : Site where
  tag := some .baseType
  offset := 1
  attributes := [(.byteSize, { value := .int 4 })]

/-- An array of two by three numbers. It has a child that is no dimension. -/
def gridArray : Site :=
  arrayOf 2 1 [dimensionOf 2, memberOf 1, dimensionOf 3]

def gridRow : Site :=
  arrayOf 3 1 [dimensionOf 2]

/-- Three such rows. -/
def gridRows : Site :=
  arrayOf 4 3 [dimensionOf 3]

/-- Both ways to arrange the numbers. -/
def gridProgram : Resolver where
  platform := {}
  sites := [cellType, gridArray, gridRow, gridRows]

/-- Two by three numbers, and three rows of two numbers, are laid out alike. -/
theorem answersIf_gridArray_gridRows :
    gridProgram.answer (start true 0) gridArray = .ok { size := 24, alignment := 4 } ∧
      gridProgram.answer (start true 0) gridRows = .ok { size := 24, alignment := 4 } := by
  have hcell : ∀ t ∈ some cellType, gridProgram.Holds t ∧ gridProgram.Within 1 t := by
    rintro t ⟨⟩
    exact ⟨rfl, by decide⟩
  have hplain : gridProgram.Plain cellType { size := 4, alignment := 4 } :=
    plain_iff.2 ⟨[], .nil, rfl⟩
  have htell : ∀ t ∈ some cellType, gridProgram.Tellable true t := by
    rw [forall_mem_some_tellable_iff, tellable_iff hplain]
    exact ⟨by decide +kernel, fun t ht => absurd ht List.not_mem_nil⟩
  have harray : gridProgram.BareArray (some cellType) [dimensionOf 2, dimensionOf 3] gridArray :=
    ⟨rfl, rfl, rfl, rfl, rfl, rfl⟩
  have hrow : gridProgram.BareArray (some cellType) [dimensionOf 2] gridRow :=
    ⟨rfl, rfl, rfl, rfl, rfl, rfl⟩
  have hrows : gridProgram.BareArray (some gridRow) [dimensionOf 3] gridRows :=
    ⟨rfl, rfl, rfl, rfl, rfl, rfl⟩
  obtain ⟨l, hl, -, hboth⟩ := answersIf_array_and_nesting gridProgram true 0 (by decide)
    (some cellType) 1 (fun t ht => (hcell t ht).1) (fun t ht => (hcell t ht).2)
    [dimensionOf 2, dimensionOf 3] (by simp) (by decide)
  obtain rfl := hplain.unique hl
  have htimes : Layout.times { size := 4, alignment := 4 } [dimensionOf 2, dimensionOf 3] =
      { size := 24, alignment := 4 } := by decide +kernel
  rw [htimes] at hboth
  constructor
  · exact ((hboth _ (.refl _)).1 gridArray rfl harray).1 ⟨htell, by decide +kernel⟩
  · refine ((hboth _ (.swap _ _ _)).2 gridRows rfl (.cons hrows (.cons hrow .nil))).1
      ⟨htell, fun inner hinner hne => ?_⟩
    rcases List.suffix_cons_iff.1 hinner with rfl | hinner
    · decide +kernel
    rcases List.suffix_cons_iff.1 hinner with rfl | hinner
    · decide +kernel
    · exact absurd (List.suffix_nil.1 hinner) hne

/-! ### A nesting that is not answered -/

/-- An array of bytes with 238 dimensions of `2 ^ 60` elements. Its size can just be told. -/
def longArray : Site :=
  arrayOf 2 3 (List.replicate 238 (dimensionOf (2 ^ 60)))

/-- An array of no rows of `2 ^ 60` such arrays. -/
def hollowArray : Site :=
  arrayOf 5 2 [dimensionOf 0, dimensionOf (2 ^ 60)]

/-- A row of `2 ^ 60` such arrays, whose size is too long to be told. -/
def longRow : Site :=
  arrayOf 6 2 [dimensionOf (2 ^ 60)]

/-- No such rows. -/
def hollowRows : Site :=
  arrayOf 7 6 [dimensionOf 0]

/-- Both ways to have nothing. -/
def hollowProgram : Resolver where
  platform := {}
  sites := [longArray, byteType, hollowArray, longRow, hollowRows]

/-- The array with both dimensions is answered for, and is empty. The nesting has the same plain
layout and no answer: on the way to it there is the layout of a row. -/
theorem answersIf_hollowArray_hollowRows :
    hollowProgram.BareArray (some longArray) [dimensionOf 0, dimensionOf (2 ^ 60)] hollowArray ∧
      hollowProgram.Nesting (some longArray) [dimensionOf 0, dimensionOf (2 ^ 60)]
        (some hollowRows) ∧
      hollowProgram.Within 2 longArray ∧
      hollowProgram.Holds hollowArray ∧ hollowProgram.Holds hollowRows ∧
      hollowProgram.answer (start true 5000) hollowArray = .ok { size := 0, alignment := 1 } ∧
      hollowProgram.answer (start true 5000) hollowRows = .error .unwritable := by
  have hrow : hollowProgram.BareArray (some longArray) [dimensionOf (2 ^ 60)] longRow :=
    ⟨rfl, rfl, rfl, rfl, rfl, rfl⟩
  have hrows : hollowProgram.BareArray (some longRow) [dimensionOf 0] hollowRows :=
    ⟨rfl, rfl, rfl, rfl, rfl, rfl⟩
  exact ⟨⟨rfl, rfl, rfl, rfl, rfl, rfl⟩, .cons hrows (.cons hrow .nil), by decide +kernel,
    rfl, rfl, by decide +kernel, by decide +kernel⟩

end Resolver

end PaddingAudit
