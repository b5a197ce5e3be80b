import Mathlib.Data.List.Perm.Basic
import PaddingAudit.Diagnosis

/-!
# Rounding and diagnosis

The laws of rounding up, of sums of sizes and of the suggested order, and what it means for a record
to get a finding.
-/

namespace PaddingAudit

theorem roundUp_lt_add {alignment : Int} (size : Int) (h : 1 ≤ alignment) :
    roundUp size alignment < size + alignment := by
  unfold roundUp
  split
  · omega
  · have hpos := Int.emod_nonneg size (b := alignment) (by omega)
    split <;> omega

theorem roundUp_of_dvd {size alignment : Int} (h : alignment ∣ size) :
    roundUp size alignment = size := by
  unfold roundUp
  rw [if_pos (Int.emod_eq_zero_of_dvd h), ite_self]

/-- Multiples of an alignment that differ are at least the alignment apart. -/
theorem add_le_of_dvd_of_lt {alignment a b : Int} (ha : alignment ∣ a) (hb : alignment ∣ b)
    (h : a < b) : a + alignment ≤ b := by
  have hdvd : alignment ∣ b - a := Int.dvd_sub hb ha
  have := Int.le_of_dvd (by omega) hdvd
  omega

theorem roundUp_le {size alignment bound : Int} (h : 1 ≤ alignment) (hdvd : alignment ∣ bound)
    (hle : size ≤ bound) : roundUp size alignment ≤ bound := by
  by_contra hlt
  have := add_le_of_dvd_of_lt hdvd (dvd_roundUp size h) (by omega)
  have := roundUp_lt_add size h
  omega

theorem roundUp_lt_iff {size alignment bound : Int} (h : 1 ≤ alignment) (hdvd : alignment ∣ bound) :
    roundUp size alignment < bound ↔ size + alignment ≤ bound := by
  constructor
  · intro hlt
    have := add_le_of_dvd_of_lt (dvd_roundUp size h) hdvd hlt
    have := le_roundUp size alignment
    omega
  · intro hle
    have := roundUp_lt_add size h
    omega

theorem total_nonneg {sizes : List Int} (h : ∀ n ∈ sizes, 0 ≤ n) : 0 ≤ total sizes := by
  induction sizes with
  | nil => simp
  | cons n sizes ih =>
    have hn := h n (by simp)
    have hrest := ih fun m hm => h m (by simp [hm])
    rw [total_cons]
    omega

theorem total_perm {sizes sizes' : List Int} (h : sizes.Perm sizes') :
    total sizes = total sizes' := by
  induction h with
  | nil => rfl
  | cons n _ ih => simp [ih]
  | swap m n sizes =>
    simp only [total_cons]
    omega
  | trans _ _ ih ih' => exact ih.trans ih'

theorem Field.precedes_iff {a b : Field} :
    a.precedes b ↔ b.size < a.size ∨ a.size = b.size ∧ a.name ≤ b.name := by
  simp [precedes]

theorem suggestedOrder_perm (fields : List Field) : (suggestedOrder fields).Perm fields :=
  List.mergeSort_perm _ _

theorem Field.precedes_trans (a b c : Field) (hab : a.precedes b) (hbc : b.precedes c) :
    a.precedes c := by
  rw [precedes_iff] at hab hbc ⊢
  rcases hab with hab | ⟨hab, hn⟩ <;> rcases hbc with hbc | ⟨hbc, hm⟩
  · exact .inl (by omega)
  · exact .inl (by omega)
  · exact .inl (by omega)
  · exact .inr ⟨hab.trans hbc, String.le_trans hn hm⟩

theorem Field.precedes_total (a b : Field) : a.precedes b || b.precedes a := by
  rw [Bool.or_eq_true, precedes_iff, precedes_iff]
  rcases Int.lt_trichotomy a.size b.size with h | h | h
  · exact .inr (.inl h)
  · rcases String.le_total a.name b.name with hn | hn
    · exact .inl (.inr ⟨h, hn⟩)
    · exact .inr (.inr ⟨h.symm, hn⟩)
  · exact .inl (.inl h)

/-- In the suggested order no member comes before a larger one. -/
theorem pairwise_suggestedOrder (fields : List Field) :
    (suggestedOrder fields).Pairwise fun a b => b.size ≤ a.size := by
  have hsorted : (fields.mergeSort Field.precedes).Pairwise fun a b => a.precedes b :=
    List.pairwise_mergeSort Field.precedes_trans Field.precedes_total fields
  refine hsorted.imp fun {a b} h => ?_
  rcases Field.precedes_iff.1 h with h | h <;> omega

theorem Record.negativeSize?_eq_none_iff {r : Record} :
    r.negativeSize? = none ↔ 0 ≤ r.actualSize ∧ ∀ field ∈ r.fields, 0 ≤ field.size := by
  unfold negativeSize?
  by_cases h : r.actualSize < 0
  · rw [if_pos h]
    constructor
    · intro h'
      cases h'
    · omega
  · rw [if_neg h, Option.map_eq_none_iff, List.find?_eq_none]
    simp
    omega

/-- A record gets no finding exactly if its sizes are not negative and it is as small as it can
be. -/
theorem diagnose_eq_ok_none_iff {r : Record} {cap : Int} :
    diagnose r cap = .ok none ↔ r.negativeSize? = none ∧ r.minimalSize cap = r.actualSize := by
  unfold diagnose
  cases hn : r.negativeSize? with
  | some e => simp
  | none =>
    dsimp only
    split
    · simp_all
    · split <;> simp_all

/-- A record gets a finding exactly if its sizes are not negative and it is larger than it has to
be. -/
theorem diagnose_eq_ok_some_iff {r : Record} {cap : Int} {finding : Finding} :
    diagnose r cap = .ok (some finding) ↔
      r.negativeSize? = none ∧ r.minimalSize cap < r.actualSize ∧ finding = r.finding cap := by
  unfold diagnose
  cases hn : r.negativeSize? with
  | some e => simp
  | none =>
    dsimp only
    split
    · simp
      omega
    · split
      · simp
        omega
      · simp only [Except.ok.injEq, Option.some.injEq, true_and]
        constructor
        · intro h
          exact ⟨by omega, h.symm⟩
        · intro h
          exact h.2.symm

end PaddingAudit
