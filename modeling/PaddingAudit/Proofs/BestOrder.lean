import Mathlib.Algebra.Divisibility.Basic
import PaddingAudit.Proofs.Placement

/-!
# Orders without gaps

No order of the members makes a record smaller than its minimal size, and some order reaches it: if
members with stricter alignments come first, each member ends where the next one may start. So a
record gets no finding exactly if its declared order is one of the best. For scalars the suggested
order, which goes by size, is among the best ones as well.
-/

namespace PaddingAudit

variable {cap : Int} {fields : List Field}

theorem one_le_strictest (cap : Int) (fields : List Field) : 1 ≤ strictest cap fields := by
  rw [strictest, ← List.foldl_map (g := max)]
  exact le_foldl_max 1 _

theorem gapsFrom_nonneg (offset : Int) : 0 ≤ gapsFrom cap offset fields := by
  induction fields generalizing offset with
  | nil => exact Int.le_refl 0
  | cons field fields ih =>
    have hround := le_roundUp offset (effectiveAlignment field.alignment cap)
    have hrest := ih (placed cap offset field)
    rw [gapsFrom]
    omega

theorem roundUp_total_le_naturalSize (cap : Int) (fields : List Field) :
    roundUp (total (fields.map Field.size)) (strictest cap fields) ≤ naturalSize cap fields := by
  have hone := one_le_strictest cap fields
  have hgaps : 0 ≤ gaps cap fields := gapsFrom_nonneg 0
  have hround := le_roundUp (total (fields.map Field.size) + gaps cap fields) (strictest cap fields)
  rw [naturalSize_eq]
  exact roundUp_le hone (dvd_roundUp _ hone) (by omega)

theorem effectiveAlignment_max (a b cap : Int) :
    effectiveAlignment (max a b) cap =
      max (effectiveAlignment a cap) (effectiveAlignment b cap) := by
  unfold effectiveAlignment
  omega

theorem foldl_max_effectiveAlignment (a cap : Int) (fields : List Field) :
    fields.foldl (fun m field => max m (effectiveAlignment field.alignment cap))
        (effectiveAlignment a cap) =
      effectiveAlignment ((fields.map Field.alignment).foldl max a) cap := by
  induction fields generalizing a with
  | nil => rfl
  | cons field fields ih =>
    rw [List.map_cons, List.foldl_cons, List.foldl_cons, ← ih, effectiveAlignment_max]

/-- The cap may be put on the alignments of the members or on the largest of them. -/
theorem strictest_eq (cap : Int) (fields : List Field) :
    strictest cap fields =
      effectiveAlignment ((fields.map Field.alignment).max?.getD 1) cap := by
  cases fields with
  | nil =>
    show 1 = effectiveAlignment 1 cap
    unfold effectiveAlignment
    omega
  | cons field fields =>
    -- The first member takes the place of the one that the fold starts from.
    have hone := one_le_effectiveAlignment field.alignment cap
    rw [List.map_cons, List.max?_cons', Option.getD_some, ← foldl_max_effectiveAlignment, strictest,
      List.foldl_cons, Int.max_eq_right hone]

theorem Record.minimalSize_eq_of_perm {r : Record} {order : List Field}
    (h : r.effectiveAlignment cap = strictest cap r.fields) (hperm : order.Perm r.fields) :
    r.minimalSize cap = roundUp (total (order.map Field.size)) (strictest cap order) := by
  rw [minimalSize, h, strictest_perm hperm, total_perm (hperm.map Field.size)]

/-- The minimal size is a lower bound for every order of the members, whatever their sizes and
alignments are, and a multiple of the alignment under the cap. All it takes is a record that is
aligned as the most demanding of its members. -/
theorem minimalSize_le_naturalSize {r : Record} (cap : Int)
    (halignment : r.alignment = (r.fields.map Field.alignment).max?.getD 1) {order : List Field}
    (hperm : order.Perm r.fields) :
    r.minimalSize cap ≤ naturalSize cap order ∧ r.effectiveAlignment cap ∣ r.minimalSize cap := by
  have hstrictest : r.effectiveAlignment cap = strictest cap r.fields := by
    rw [strictest_eq, ← halignment, Record.effectiveAlignment]
  constructor
  · rw [Record.minimalSize_eq_of_perm hstrictest hperm]
    exact roundUp_total_le_naturalSize cap order
  · exact dvd_roundUp _ (one_le_effectiveAlignment r.alignment cap)

/-- A record with a negative size, alignments that are no powers of two, and one below zero. -/
def ragged : Record where
  name := "S"
  fields := [{ name := "a", size := 5, alignment := 3 },
    { name := "b", size := -2, alignment := 12 }, { name := "c", size := 4, alignment := -1 }]
  actualSize := 10
  alignment := 12

/-- Under a cap of five the record needs ten bytes, and fifteen in another order. -/
theorem minimalSize_le_naturalSize_ragged :
    let order := [{ name := "c", size := 4, alignment := -1 },
      { name := "a", size := 5, alignment := 3 }, { name := "b", size := -2, alignment := 12 }]
    ragged.alignment = (ragged.fields.map Field.alignment).max?.getD 1 ∧
      order.Perm ragged.fields ∧ naturalSize 5 order = 15 ∧ ragged.minimalSize 5 = 10 ∧
      ragged.minimalSize 5 ≤ naturalSize 5 order ∧
      ragged.effectiveAlignment 5 ∣ ragged.minimalSize 5 := by
  intro order
  have halignment : ragged.alignment = (ragged.fields.map Field.alignment).max?.getD 1 := by decide
  have hperm : order.Perm ragged.fields := by decide
  exact ⟨halignment, hperm, by decide, by decide, minimalSize_le_naturalSize 5 halignment hperm⟩

/-! ### Records that can be placed -/

/-- A record whose members can be placed naturally, whatever size it is said to have: alignments are
powers of two under the cap, the size of a member is a multiple of its alignment, and the record is
aligned as its strictest member. -/
structure Record.Placeable (r : Record) (cap : Int) : Prop where
  cap_pow : ∃ k : Nat, cap = 2 ^ k
  alignment_pow : ∀ field ∈ r.fields, ∃ k : Nat, field.alignment = 2 ^ k
  alignment_le : ∀ field ∈ r.fields, field.alignment ≤ cap
  size_nonneg : ∀ field ∈ r.fields, 0 ≤ field.size
  alignment_dvd : ∀ field ∈ r.fields, field.alignment ∣ field.size
  alignment_eq : r.alignment = (r.fields.map Field.alignment).foldl max 1

/-- Of two powers of two the smaller one divides the other. -/
theorem two_pow_dvd_two_pow {i j : Nat} (h : (2 : Int) ^ i ≤ 2 ^ j) : (2 : Int) ^ i ∣ 2 ^ j := by
  apply pow_dvd_pow
  by_contra hlt
  have hpow : (2 : Int) ^ j < 2 ^ i := Int.pow_lt_pow_of_lt (by decide) (by omega)
  omega

/-- The members with stricter alignments first. -/
def strictestFirst (fields : List Field) : List Field :=
  fields.mergeSort fun a b => decide (b.alignment ≤ a.alignment)

theorem strictestFirst_perm (fields : List Field) : (strictestFirst fields).Perm fields :=
  List.mergeSort_perm _ _

theorem pairwise_strictestFirst (fields : List Field) :
    (strictestFirst fields).Pairwise fun a b => b.alignment ≤ a.alignment := by
  have hsorted : (strictestFirst fields).Pairwise fun a b => decide (b.alignment ≤ a.alignment) :=
    List.pairwise_mergeSort ?_ ?_ fields
  · simpa using hsorted
  · intro a b c hab hbc
    simp only [decide_eq_true_eq] at *
    omega
  · intro a b
    simp only [Bool.or_eq_true, decide_eq_true_eq]
    omega

namespace Record.Placeable

variable {r : Record} {order : List Field}

/-- With the size of its declared order the record is natural. -/
theorem natural (h : r.Placeable cap) :
    Record.Natural { r with actualSize := naturalSize cap r.fields } cap where
  cap_pow := h.cap_pow
  alignment_pow := h.alignment_pow
  alignment_le := h.alignment_le
  size_nonneg := h.size_nonneg
  alignment_dvd := h.alignment_dvd
  alignment_eq := h.alignment_eq
  actualSize_eq := rfl

theorem minimalSize_eq (h : r.Placeable cap) (hperm : order.Perm r.fields) :
    r.minimalSize cap = roundUp (total (order.map Field.size)) (strictest cap order) := by
  have hstrictest : strictest cap r.fields = r.alignment := h.natural.strictest_fields
  have halignment : r.effectiveAlignment cap = r.alignment := h.natural.effectiveAlignment_eq
  exact minimalSize_eq_of_perm (halignment.trans hstrictest.symm) hperm

/-- No order of the members is smaller than the minimal size. -/
theorem minimalSize_le (h : r.Placeable cap) (hperm : order.Perm r.fields) :
    r.minimalSize cap ≤ naturalSize cap order := by
  rw [h.minimalSize_eq hperm]
  exact roundUp_total_le_naturalSize cap order

/-- An order without gaps reaches the minimal size. -/
theorem naturalSize_of_gaps (h : r.Placeable cap) (hperm : order.Perm r.fields)
    (hgaps : gaps cap order = 0) : naturalSize cap order = r.minimalSize cap := by
  rw [naturalSize_eq, hgaps, Int.add_zero, h.minimalSize_eq hperm]

/-- If stricter members come first, each alignment divides the sizes of all members in front. -/
theorem gaps_strictestFirst (h : r.Placeable cap) : gaps cap (strictestFirst r.fields) = 0 := by
  have hmem : ∀ field, field ∈ strictestFirst r.fields → field ∈ r.fields := fun field =>
    (strictestFirst_perm r.fields).mem_iff.1
  apply gapsFrom_eq_zero
  · intro field _
    exact Int.dvd_zero _
  · refine (pairwise_strictestFirst r.fields).imp_of_mem ?_
    intro a b ha hb hle
    obtain ⟨i, hi⟩ := h.alignment_pow a (hmem a ha)
    obtain ⟨j, hj⟩ := h.alignment_pow b (hmem b hb)
    have hdvd : b.alignment ∣ a.alignment := by
      rw [hi, hj] at hle ⊢
      exact two_pow_dvd_two_pow hle
    have hfield : PaddingAudit.effectiveAlignment b.alignment cap = b.alignment :=
      h.natural.effectiveAlignment_field (hmem b hb)
    rw [hfield]
    exact hdvd.trans (h.alignment_dvd a (hmem a ha))

theorem naturalSize_strictestFirst (h : r.Placeable cap) :
    naturalSize cap (strictestFirst r.fields) = r.minimalSize cap :=
  h.naturalSize_of_gaps (strictestFirst_perm r.fields) h.gaps_strictestFirst

theorem minimalSize_nonneg (h : r.Placeable cap) : 0 ≤ r.minimalSize cap := by
  have htotal : 0 ≤ total (r.fields.map Field.size) := by
    apply total_nonneg
    intro n hn
    obtain ⟨field, hf, rfl⟩ := List.mem_map.1 hn
    exact h.size_nonneg field hf
  have hround := le_roundUp (total (r.fields.map Field.size)) (r.effectiveAlignment cap)
  exact Int.le_trans htotal hround

/-- The minimal size is below the size of the declared order exactly if some order is. -/
theorem exists_lt_iff (h : r.Placeable cap) {bound : Int} :
    (∃ order : List Field, order.Perm r.fields ∧ naturalSize cap order < bound) ↔
      r.minimalSize cap < bound := by
  constructor
  · rintro ⟨order, hperm, hlt⟩
    have hle := h.minimalSize_le hperm
    omega
  · intro hlt
    refine ⟨strictestFirst r.fields, strictestFirst_perm r.fields, ?_⟩
    rw [h.naturalSize_strictestFirst]
    exact hlt

end Record.Placeable

/-- The minimal size of a record that can be placed is the size of some order of its members. So a
record in the size of its declared order gets no finding exactly if no other order is smaller, and a
finding exactly if some is. -/
theorem minimalSize_attained {r : Record} (h : r.Placeable cap) :
    (∃ order : List Field, order.Perm r.fields ∧ naturalSize cap order = r.minimalSize cap) ∧
      (r.actualSize = naturalSize cap r.fields →
        (diagnose r cap = .ok none ↔
          ¬ ∃ order : List Field, order.Perm r.fields ∧
            naturalSize cap order < naturalSize cap r.fields) ∧
        (diagnose r cap = .ok (some (r.finding cap)) ↔
          ∃ order : List Field, order.Perm r.fields ∧
            naturalSize cap order < naturalSize cap r.fields)) := by
  constructor
  · exact ⟨strictestFirst r.fields, strictestFirst_perm r.fields, h.naturalSize_strictestFirst⟩
  · intro hactual
    have hle := h.minimalSize_le (.refl r.fields)
    have hnone : r.negativeSize? = none := by
      have hnonneg := h.minimalSize_nonneg
      rw [Record.negativeSize?_eq_none_iff]
      exact ⟨by omega, h.size_nonneg⟩
    rw [h.exists_lt_iff, diagnose_eq_ok_none_iff, diagnose_eq_ok_some_iff, hactual]
    constructor
    · constructor
      · rintro ⟨-, heq⟩
        omega
      · intro hnot
        exact ⟨hnone, by omega⟩
    · constructor
      · exact fun hfinding => hfinding.2.1
      · exact fun hlt => ⟨hnone, hlt, rfl⟩

theorem Record.Natural.placeable {r : Record} (h : r.Natural cap) : r.Placeable cap where
  cap_pow := h.cap_pow
  alignment_pow := h.alignment_pow
  alignment_le := h.alignment_le
  size_nonneg := h.size_nonneg
  alignment_dvd := h.alignment_dvd
  alignment_eq := h.alignment_eq

/-- With the number in front the six bytes need no more than six, and this is why they get a
finding. -/
theorem minimalSize_attained_crumbs :
    crumbs.Placeable 8 ∧ crumbs.actualSize = naturalSize 8 crumbs.fields ∧
      (∃ order : List Field, order.Perm crumbs.fields ∧ naturalSize 8 order = 6) ∧
      diagnose crumbs 8 = .ok (some (crumbs.finding 8)) := by
  have h : crumbs.Placeable 8 := natural_crumbs.placeable
  have hactual := natural_crumbs.actualSize_eq
  obtain ⟨hattained, hdiagnosed⟩ := minimalSize_attained h
  refine ⟨h, hactual, hattained, (hdiagnosed hactual).2.2 ?_⟩
  refine ⟨[{ name := "b", size := 2, alignment := 2 }, { name := "a", size := 3, alignment := 1 },
    { name := "c", size := 1, alignment := 1 }], ?_, ?_⟩
  · decide
  · decide

/-! ### Scalars -/

/-- A member that is aligned by its size: it is empty, or its size is a power of two or a multiple
of the cap. -/
structure Field.Scalar (field : Field) (cap : Int) : Prop where
  size_cases : field.size = 0 ∨ (∃ k : Nat, field.size = 2 ^ k) ∨ 0 < field.size ∧ cap ∣ field.size
  alignment_eq : field.alignment = effectiveAlignment field.size cap

namespace Field.Scalar

variable {a b field : Field}

/-- What the alignment of a scalar is. -/
theorem cases (h : field.Scalar cap) (hcap : ∃ k : Nat, cap = 2 ^ k) :
    field.size = 0 ∧ field.alignment = 1 ∨
      (∃ k : Nat, field.size = 2 ^ k ∧ field.size ≤ cap ∧ field.alignment = field.size) ∨
      cap ≤ field.size ∧ cap ∣ field.size ∧ field.alignment = cap := by
  obtain ⟨c, hc⟩ := hcap
  have hone := one_le_two_pow c
  have halignment := h.alignment_eq
  unfold effectiveAlignment at halignment
  rcases h.size_cases with hzero | ⟨k, hk⟩ | ⟨hpos, hdvd⟩
  · exact .inl ⟨hzero, by omega⟩
  · have hone' := one_le_two_pow k
    by_cases hle : field.size ≤ cap
    · exact .inr (.inl ⟨k, hk, hle, by omega⟩)
    · refine .inr (.inr ⟨by omega, ?_, by omega⟩)
      rw [hk, hc] at hle ⊢
      exact two_pow_dvd_two_pow (by omega)
  · have hle := Int.le_of_dvd hpos hdvd
    exact .inr (.inr ⟨hle, hdvd, by omega⟩)

theorem size_nonneg (h : field.Scalar cap) : 0 ≤ field.size := by
  rcases h.size_cases with hzero | ⟨k, hk⟩ | ⟨hpos, -⟩
  · omega
  · have := one_le_two_pow k
    omega
  · omega

theorem alignment_pow (h : field.Scalar cap) (hcap : ∃ k : Nat, cap = 2 ^ k) :
    ∃ k : Nat, field.alignment = 2 ^ k := by
  rcases h.cases hcap with ⟨-, hone⟩ | ⟨k, hk, -, heq⟩ | ⟨-, -, heq⟩
  · exact ⟨0, hone⟩
  · exact ⟨k, heq.trans hk⟩
  · rw [heq]
    exact hcap

/-- A scalar can stand behind any that is no smaller. -/
theorem alignment_dvd (ha : a.Scalar cap) (hb : b.Scalar cap) (hcap : ∃ k : Nat, cap = 2 ^ k)
    (hle : a.size ≤ b.size) : a.alignment ∣ b.size := by
  rcases ha.cases hcap with ⟨-, hone⟩ | ⟨i, hi, hicap, heq⟩ | ⟨hcapa, -, heq⟩
  · rw [hone]
    exact Int.one_dvd b.size
  · have hpos := one_le_two_pow i
    rcases hb.cases hcap with ⟨hzero, -⟩ | ⟨j, hj, -⟩ | ⟨-, hdvd, -⟩
    · omega
    · rw [hi, hj] at hle
      rw [heq, hi, hj]
      exact two_pow_dvd_two_pow hle
    · obtain ⟨c, rfl⟩ := hcap
      refine Int.dvd_trans ?_ hdvd
      rw [hi] at hicap
      rw [heq, hi]
      exact two_pow_dvd_two_pow hicap
  · obtain ⟨c, hc⟩ := hcap
    have hpos := one_le_two_pow c
    rcases hb.cases ⟨c, hc⟩ with ⟨hzero, -⟩ | ⟨j, hj, hjcap, -⟩ | ⟨-, hdvd, -⟩
    · omega
    · have hsame : b.size = cap := by omega
      rw [heq, hsame]
    · rw [heq]
      exact hdvd

end Field.Scalar

theorem Record.placeable_of_scalar {r : Record} (hcap : ∃ k : Nat, cap = 2 ^ k)
    (hscalar : ∀ field ∈ r.fields, field.Scalar cap)
    (halignment : r.alignment = (r.fields.map Field.alignment).foldl max 1) :
    r.Placeable cap where
  cap_pow := hcap
  alignment_pow field hf := (hscalar field hf).alignment_pow hcap
  alignment_le field hf := by
    obtain ⟨c, hc⟩ := hcap
    have hone := one_le_two_pow c
    rw [(hscalar field hf).alignment_eq]
    unfold PaddingAudit.effectiveAlignment
    omega
  size_nonneg field hf := (hscalar field hf).size_nonneg
  alignment_dvd field hf := (hscalar field hf).alignment_dvd (hscalar field hf) hcap (Int.le_refl _)
  alignment_eq := halignment

/-- Under a cap that leaves all alignments as they are, members are placed as under another such
cap. -/
theorem naturalSize_congr {bound : Int}
    (h : ∀ field ∈ fields,
      effectiveAlignment field.alignment cap = effectiveAlignment field.alignment bound) :
    naturalSize cap fields = naturalSize bound fields := by
  have hend : fields.foldl (placed cap) 0 = fields.foldl (placed bound) 0 := by
    refine List.foldl_ext _ _ _ fun offset field hf => ?_
    rw [placed, h field hf, placed]
  have hstrictest : strictest cap fields = strictest bound fields := by
    refine List.foldl_ext _ _ _ fun a field hf => ?_
    rw [h field hf]
  rw [naturalSize, hend, hstrictest, naturalSize]

/-- For scalars the suggested order reaches the minimal size. They are placed by their alignments as
these are, which no cap from that of the platform on changes. -/
theorem naturalSize_suggestedOrder_of_scalar {r : Record} (hcap : ∃ k : Nat, cap = 2 ^ k)
    (hscalar : ∀ field ∈ r.fields, field.Scalar cap)
    (halignment : r.alignment = (r.fields.map Field.alignment).foldl max 1) (bound : Int)
    (hbound : cap ≤ bound) :
    naturalSize bound (suggestedOrder r.fields) = r.minimalSize cap := by
  have h := Record.placeable_of_scalar hcap hscalar halignment
  have hperm := suggestedOrder_perm r.fields
  have hgaps : gaps cap (suggestedOrder r.fields) = 0 := by
    apply h.natural.gaps_suggestedOrder
    intro a ha b hb hle
    exact (hscalar a ha).alignment_dvd (hscalar b hb) hcap hle
  rw [← h.naturalSize_of_gaps hperm hgaps]
  apply naturalSize_congr
  intro field hf
  have hle := h.alignment_le field (hperm.mem_iff.1 hf)
  unfold effectiveAlignment
  omega

/-- Scalars of all kinds: bytes, a number, a member above the cap and an empty one. -/
def assorted : Record where
  name := "S"
  fields := [{ name := "a", size := 1, alignment := 1 },
    { name := "b", size := 24, alignment := 8 }, { name := "c", size := 0, alignment := 1 },
    { name := "d", size := 4, alignment := 4 }, { name := "e", size := 1, alignment := 1 }]
  actualSize := 40
  alignment := 8

theorem scalar_assorted : ∀ field ∈ assorted.fields, field.Scalar 8 := by
  have hpow (k : Nat) {field : Field} (hsize : field.size = 2 ^ k)
      (h : field.alignment = effectiveAlignment field.size 8) : field.Scalar 8 :=
    ⟨.inr (.inl ⟨k, hsize⟩), h⟩
  simp only [assorted, List.forall_mem_cons]
  refine ⟨hpow 0 rfl rfl, ⟨.inr (.inr (by decide)), rfl⟩, ⟨.inl rfl, rfl⟩, hpow 2 rfl rfl,
    hpow 0 rfl rfl, ?_⟩
  simp

/-- The thirty bytes in forty need thirty-two in the suggested order. -/
theorem naturalSize_suggestedOrder_assorted :
    (∀ field ∈ assorted.fields, field.Scalar 8) ∧
      naturalSize 8 assorted.fields = 40 ∧
      naturalSize 8 (suggestedOrder assorted.fields) = 32 := by
  refine ⟨scalar_assorted, by decide, ?_⟩
  exact naturalSize_suggestedOrder_of_scalar ⟨3, rfl⟩ scalar_assorted (by decide) 8 (by decide)

end PaddingAudit
