/-!
# Alignment arithmetic

Rounding of sizes up to an alignment, and the cap a platform puts on alignments. Sizes and
alignments are integers: what a file says about itself need not make sense, and it is the reader
of the numbers who has to notice.
-/

namespace PaddingAudit

/-- The least multiple of `alignment` that is at least `size`. An alignment of one or less asks for
nothing. -/
def roundUp (size alignment : Int) : Int :=
  if alignment ≤ 1 then size
  else if size % alignment = 0 then size
  else size + (alignment - size % alignment)

theorem roundUp_of_le_one {alignment : Int} (size : Int) (h : alignment ≤ 1) :
    roundUp size alignment = size := by
  simp [roundUp, h]

theorem dvd_roundUp {alignment : Int} (size : Int) (h : 1 ≤ alignment) :
    alignment ∣ roundUp size alignment := by
  unfold roundUp
  split
  · have : alignment = 1 := by omega
    simp [this]
  · split
    · exact Int.dvd_of_emod_eq_zero ‹_›
    · refine ⟨size / alignment + 1, ?_⟩
      have := Int.emod_add_mul_ediv size alignment
      rw [Int.mul_add]
      omega

theorem le_roundUp (size alignment : Int) : size ≤ roundUp size alignment := by
  unfold roundUp
  split
  · exact Int.le_refl size
  · have := Int.emod_lt_of_pos size (b := alignment) (by omega)
    split <;> omega

/-- An alignment under the cap of the platform, and never below one. -/
def effectiveAlignment (alignment cap : Int) : Int :=
  max 1 (min alignment cap)

theorem one_le_effectiveAlignment (alignment cap : Int) : 1 ≤ effectiveAlignment alignment cap := by
  unfold effectiveAlignment
  omega

def total (sizes : List Int) : Int :=
  sizes.foldr (· + ·) 0

@[simp]
theorem total_nil : total [] = 0 := rfl

@[simp]
theorem total_cons (size : Int) (sizes : List Int) :
    total (size :: sizes) = size + total sizes := rfl

/-- The storage of a type: how many bytes, and which addresses. -/
structure Layout where
  size : Int
  alignment : Int := 1
  deriving DecidableEq, Repr, Inhabited

/-- The layout of `void` and of every type that cannot be resolved. -/
def Layout.void : Layout := { size := 0 }

/-- The parameters of a target that decide layouts. -/
structure Platform where
  wordSize : Int := 8
  maxAlign : Int := 8
  deriving DecidableEq, Repr, Inhabited

/-- The platform with another alignment cap, if one is given. -/
def Platform.withMaxAlign (p : Platform) : Option Int → Platform
  | none => p
  | some cap => { p with maxAlign := cap }

/-- A type of the given size that asks for its own size as alignment, under the cap. -/
def Platform.selfAligned (p : Platform) (size : Int) : Layout where
  size := size
  alignment := effectiveAlignment size p.maxAlign

end PaddingAudit
