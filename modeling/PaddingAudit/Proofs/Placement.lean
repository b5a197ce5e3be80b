import Mathlib.Algebra.Ring.Int.Defs
import PaddingAudit.Proofs.Diagnosis

/-!
# Natural placement

A compiler places the members of a record one after the other, each at the next multiple of its
alignment, and rounds the end up to the strictest alignment. A finding suggests an order by size,
but padding is a matter of alignment: members that are larger than their alignment may leave gaps in
front of smaller ones, and the suggested order may be no better than the declared one.
-/

namespace PaddingAudit

variable {cap : Int} {fields : List Field}

/-- The end of a member that is placed at the next multiple of its alignment. -/
def placed (cap offset : Int) (field : Field) : Int :=
  roundUp offset (effectiveAlignment field.alignment cap) + field.size

/-- The strictest alignment among some members. -/
def strictest (cap : Int) (fields : List Field) : Int :=
  fields.foldl (fun a field => max a (effectiveAlignment field.alignment cap)) 1

/-- The size of a record whose members are placed in the order given. -/
def naturalSize (cap : Int) (fields : List Field) : Int :=
  roundUp (fields.foldl (placed cap) 0) (strictest cap fields)

/-- The bytes left free in front of members that are placed from an offset on. -/
def gapsFrom (cap : Int) : (offset : Int) → List Field → Int
  | _, [] => 0
  | offset, field :: fields =>
    roundUp offset (effectiveAlignment field.alignment cap) - offset +
      gapsFrom cap (placed cap offset field) fields

/-- The bytes left free between the members of a record. -/
def gaps (cap : Int) (fields : List Field) : Int :=
  gapsFrom cap 0 fields

theorem foldl_placed (offset : Int) :
    fields.foldl (placed cap) offset =
      offset + total (fields.map Field.size) + gapsFrom cap offset fields := by
  induction fields generalizing offset with
  | nil => simp [gapsFrom]
  | cons field fields ih =>
    rw [List.foldl_cons, ih, List.map_cons, total_cons, gapsFrom, placed]
    omega

theorem naturalSize_eq (cap : Int) (fields : List Field) :
    naturalSize cap fields =
      roundUp (total (fields.map Field.size) + gaps cap fields) (strictest cap fields) := by
  rw [naturalSize, foldl_placed, gaps, Int.zero_add]

theorem strictest_perm {fields' : List Field} (h : fields.Perm fields') :
    strictest cap fields = strictest cap fields' := by
  unfold strictest
  refine h.foldl_eq' (fun a _ b _ n => ?_) 1
  omega

/-- Members leave no gaps if the alignment of each divides where they start and the sizes of all
members in front of it. -/
theorem gapsFrom_eq_zero {offset : Int}
    (hstart : ∀ field ∈ fields, effectiveAlignment field.alignment cap ∣ offset)
    (hdvd : fields.Pairwise fun a b => effectiveAlignment b.alignment cap ∣ a.size) :
    gapsFrom cap offset fields = 0 := by
  induction fields generalizing offset with
  | nil => rfl
  | cons field fields ih =>
    rw [List.pairwise_cons] at hdvd
    have hround := roundUp_of_dvd (hstart field (by simp))
    rw [gapsFrom, placed, hround, Int.sub_self, Int.zero_add]
    -- The end of this member is a multiple of the alignment of every one that follows.
    refine ih (fun later hlater => ?_) hdvd.2
    exact Int.dvd_add (hstart later (by simp [hlater])) (hdvd.1 later hlater)

/-! ### Records that were placed naturally -/

/-- A record as a compiler lays it out in declaration order: alignments are powers of two under the
cap, the size of a member is a multiple of its alignment, and the record is aligned as its strictest
member. -/
structure Record.Natural (r : Record) (cap : Int) : Prop where
  cap_pow : ∃ k : Nat, cap = 2 ^ k
  alignment_pow : ∀ field ∈ r.fields, ∃ k : Nat, field.alignment = 2 ^ k
  alignment_le : ∀ field ∈ r.fields, field.alignment ≤ cap
  size_nonneg : ∀ field ∈ r.fields, 0 ≤ field.size
  alignment_dvd : ∀ field ∈ r.fields, field.alignment ∣ field.size
  alignment_eq : r.alignment = (r.fields.map Field.alignment).foldl max 1
  actualSize_eq : r.actualSize = naturalSize cap r.fields

theorem one_le_two_pow (k : Nat) : (1 : Int) ≤ 2 ^ k :=
  Int.pow_pos (by decide)

theorem foldl_max_le {bound start : Int} {ns : List Int} (hstart : start ≤ bound)
    (h : ∀ n ∈ ns, n ≤ bound) : ns.foldl max start ≤ bound := by
  induction ns generalizing start with
  | nil => exact hstart
  | cons n ns ih =>
    have hn := h n (by simp)
    exact ih (by omega) fun m hm => h m (by simp [hm])

theorem le_foldl_max (start : Int) (ns : List Int) : start ≤ ns.foldl max start := by
  induction ns generalizing start with
  | nil => exact Int.le_refl start
  | cons n ns ih =>
    have := ih (max start n)
    rw [List.foldl_cons]
    omega

namespace Record.Natural

variable {r : Record}

theorem one_le_alignment (h : r.Natural cap) : 1 ≤ r.alignment := by
  rw [h.alignment_eq]
  exact le_foldl_max 1 _

theorem effectiveAlignment_field (h : r.Natural cap) {field : Field} (hf : field ∈ r.fields) :
    PaddingAudit.effectiveAlignment field.alignment cap = field.alignment := by
  obtain ⟨k, hk⟩ := h.alignment_pow field hf
  have hle := h.alignment_le field hf
  have hpow := one_le_two_pow k
  unfold PaddingAudit.effectiveAlignment
  omega

theorem strictest_fields (h : r.Natural cap) : strictest cap r.fields = r.alignment := by
  rw [h.alignment_eq, strictest, List.foldl_map]
  refine List.foldl_ext _ _ _ fun a field hf => ?_
  rw [h.effectiveAlignment_field hf]

theorem effectiveAlignment_eq (h : r.Natural cap) : r.effectiveAlignment cap = r.alignment := by
  have hone := h.one_le_alignment
  have hle : r.alignment ≤ cap := by
    obtain ⟨k, hk⟩ := h.cap_pow
    rw [h.alignment_eq]
    refine foldl_max_le (hk ▸ one_le_two_pow k) fun n hn => ?_
    obtain ⟨field, hf, rfl⟩ := List.mem_map.1 hn
    exact h.alignment_le field hf
  unfold effectiveAlignment PaddingAudit.effectiveAlignment
  omega

theorem dvd_actualSize (h : r.Natural cap) : r.alignment ∣ r.actualSize := by
  rw [h.actualSize_eq, naturalSize, h.strictest_fields]
  exact dvd_roundUp _ h.one_le_alignment

/-- The size of the record if its members are placed in the suggested order. -/
theorem naturalSize_suggestedOrder (h : r.Natural cap) :
    naturalSize cap (suggestedOrder r.fields) =
      roundUp (total (r.fields.map Field.size) + gaps cap (suggestedOrder r.fields))
        r.alignment := by
  have hperm := suggestedOrder_perm r.fields
  rw [naturalSize_eq, strictest_perm hperm, h.strictest_fields,
    total_perm (hperm.map Field.size)]

/-- The suggested order leaves no gaps if each member can stand behind all that are no smaller. -/
theorem gaps_suggestedOrder (h : r.Natural cap)
    (hdvd : ∀ a ∈ r.fields, ∀ b ∈ r.fields, a.size ≤ b.size → a.alignment ∣ b.size) :
    gaps cap (suggestedOrder r.fields) = 0 := by
  have hmem : ∀ field, field ∈ suggestedOrder r.fields → field ∈ r.fields := fun field =>
    (suggestedOrder_perm r.fields).mem_iff.1
  refine gapsFrom_eq_zero (fun _ _ => Int.dvd_zero _)
    ((pairwise_suggestedOrder r.fields).imp_of_mem ?_)
  intro a b ha hb hle
  rw [h.effectiveAlignment_field (hmem b hb)]
  exact hdvd b (hmem b hb) a (hmem a ha) hle

end Record.Natural

/-- What a suggestion is worth. The suggested order makes a record smaller exactly if the gaps that
it leaves are less than the padding by at least the alignment of the record. If each member can
stand behind all that are no smaller, as scalars can, it leaves none and reaches the minimal size.
-/
theorem naturalSize_suggestedOrder_lt_iff {r : Record} {f : Finding} (h : r.Natural cap)
    (hf : diagnose r cap = .ok (some f)) :
    (naturalSize cap f.suggestedOrder < r.actualSize ↔
        gaps cap f.suggestedOrder + r.alignment ≤
          r.actualSize - total (r.fields.map Field.size)) ∧
      ((∀ a ∈ r.fields, ∀ b ∈ r.fields, a.size ≤ b.size → a.alignment ∣ b.size) →
        naturalSize cap f.suggestedOrder = f.minimalSize ∧
          naturalSize cap f.suggestedOrder < r.actualSize) := by
  obtain ⟨-, hlt, rfl⟩ := diagnose_eq_ok_some_iff.1 hf
  have hsize := h.naturalSize_suggestedOrder
  constructor
  · rw [show (r.finding cap).suggestedOrder = suggestedOrder r.fields from rfl, hsize,
      roundUp_lt_iff h.one_le_alignment h.dvd_actualSize]
    omega
  · intro hdvd
    have hmin : naturalSize cap (suggestedOrder r.fields) = r.minimalSize cap := by
      rw [hsize, h.gaps_suggestedOrder hdvd, Int.add_zero, Record.minimalSize,
        h.effectiveAlignment_eq]
    exact ⟨hmin, hmin ▸ hlt⟩

/-! ### Two suggestions -/

theorem exists_two_pow {n : Int} (h : n ∈ [1, 2, 4]) : ∃ k : Nat, n = 2 ^ k := by
  simp only [List.mem_cons, List.not_mem_nil, or_false] at h
  rcases h with rfl | rfl | rfl
  · exact ⟨0, rfl⟩
  · exact ⟨1, rfl⟩
  · exact ⟨2, rfl⟩

/-- A number between two bytes. -/
def scattered : Record where
  name := "S"
  fields := [{ name := "a", size := 1, alignment := 1 }, { name := "b", size := 4, alignment := 4 },
    { name := "c", size := 1, alignment := 1 }]
  actualSize := 12
  alignment := 4

theorem natural_scattered : scattered.Natural 8 where
  cap_pow := ⟨3, rfl⟩
  alignment_pow field hf :=
    exists_two_pow ((by decide : ∀ field ∈ scattered.fields, field.alignment ∈ [1, 2, 4]) field hf)
  alignment_le := by decide
  size_nonneg := by decide
  alignment_dvd := by decide
  alignment_eq := by decide
  actualSize_eq := by decide

/-- The number in front saves four bytes. -/
theorem naturalSize_suggestedOrder_scattered :
    naturalSize 8 (scattered.finding 8).suggestedOrder = 8 ∧
      naturalSize 8 (scattered.finding 8).suggestedOrder < 12 := by
  have hfinding : diagnose scattered 8 = .ok (some (scattered.finding 8)) := by rfl
  obtain ⟨-, hscalar⟩ := naturalSize_suggestedOrder_lt_iff natural_scattered hfinding
  exact hscalar (by decide)

/-- Three bytes, a number of two bytes, and one more byte. -/
def crumbs : Record where
  name := "S"
  fields := [{ name := "a", size := 3, alignment := 1 }, { name := "b", size := 2, alignment := 2 },
    { name := "c", size := 1, alignment := 1 }]
  actualSize := 8
  alignment := 2

theorem natural_crumbs : crumbs.Natural 8 where
  cap_pow := ⟨3, rfl⟩
  alignment_pow field hf :=
    exists_two_pow ((by decide : ∀ field ∈ crumbs.fields, field.alignment ∈ [1, 2, 4]) field hf)
  alignment_le := by decide
  size_nonneg := by decide
  alignment_dvd := by decide
  alignment_eq := by decide
  actualSize_eq := by decide

/-- Of these six bytes in eight a finding says that two can be saved, and suggests the order they
are in. -/
theorem naturalSize_suggestedOrder_crumbs :
    crumbs.Natural 8 ∧ diagnose crumbs 8 = .ok (some (crumbs.finding 8)) ∧
      (crumbs.finding 8).savings = 2 ∧
      ¬ naturalSize 8 (crumbs.finding 8).suggestedOrder < crumbs.actualSize := by
  have horder : (crumbs.finding 8).suggestedOrder = crumbs.fields :=
    List.mergeSort_of_pairwise (by decide)
  refine ⟨natural_crumbs, rfl, rfl, ?_⟩
  rw [horder]
  decide

end PaddingAudit
