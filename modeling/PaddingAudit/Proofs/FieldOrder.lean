import PaddingAudit.Proofs.Analysis
import PaddingAudit.Proofs.Sorting

/-!
# Declared and suggested order

Whether a record could be smaller is a matter of its members, and not of the order in which they are
declared. The suggested order is the only one that goes by size, then by name, then by declaration.
So the declaration shows in it only between members of one size and one name.
-/

namespace PaddingAudit

open PaddingAudit.Action

variable {ε σ : Type} {fields order : List Field}

namespace Field

/-- A member with its position goes before another: larger members first, then by name, then by
position. -/
def Before (x y : Field × Nat) : Prop :=
  y.1.size < x.1.size ∨
    x.1.size = y.1.size ∧ (x.1.name < y.1.name ∨ x.1.name = y.1.name ∧ x.2 < y.2)

theorem before_iff {x y : Field × Nat} :
    Before x y ↔ x.1.precedes y.1 ∧ (y.1.precedes x.1 → x.2 < y.2) := by
  rw [Before, precedes_iff, precedes_iff]
  grind

/-- What the comparison does not tell apart has the same size and the same name. -/
theorem eq_of_precedes {a b : Field} (hab : a.precedes b) (hba : b.precedes a) :
    a.size = b.size ∧ a.name = b.name := by
  rw [precedes_iff] at hab hba
  rcases hab with hlt | ⟨hsize, hname⟩ <;> rcases hba with hlt' | ⟨hsize', hname'⟩
  · omega
  · omega
  · omega
  · exact ⟨hsize, String.le_antisymm hname hname'⟩

end Field

/-- An order lists the members by size, then by name, then as declared. -/
def Arranges (fields order : List Field) : Prop :=
  ∃ ranking : List (Field × Nat),
    ranking.Perm fields.zipIdx ∧ ranking.Pairwise Field.Before ∧ ranking.map Prod.fst = order

/-- The suggested order is the one that is by size, by name and as declared. -/
theorem arranges_iff : Arranges fields order ↔ order = suggestedOrder fields := by
  have hranked : (ranked Field.precedes fields).Pairwise Field.Before :=
    (pairwise_ranked Field.precedes_trans Field.precedes_total fields).imp Field.before_iff.2
  constructor
  · rintro ⟨ranking, hperm, hpair, rfl⟩
    have heq : ranking = ranked Field.precedes fields :=
      eq_of_pairwise_rank (hpair.imp Field.before_iff.1) (hranked.imp Field.before_iff.1)
        (hperm.trans (ranked_perm Field.precedes fields).symm)
    rw [heq, map_fst_ranked, suggestedOrder]
  · rintro rfl
    exact ⟨_, ranked_perm Field.precedes fields, hranked, map_fst_ranked Field.precedes fields⟩

theorem suggestedOrder_of_perm (hfields : ∀ a ∈ fields, ∀ b ∈ fields,
      a.size = b.size → a.name = b.name → a.alignment = b.alignment)
    (h : order.Perm fields) : suggestedOrder order = suggestedOrder fields := by
  apply mergeSort_eq_of_perm Field.precedes_trans Field.precedes_total _ h
  intro a ha b hb hab hba
  obtain ⟨hsize, hname⟩ := Field.eq_of_precedes hab hba
  have halignment := hfields a ha b hb hsize hname
  cases a
  cases b
  simp_all

namespace Record

variable {r : Record} {cap : Int}

theorem minimalSize_of_perm (h : fields.Perm r.fields) (cap : Int) :
    ({ r with fields := fields } : Record).minimalSize cap = r.minimalSize cap := by
  rw [minimalSize, minimalSize, total_perm (h.map Field.size)]
  rfl

theorem breaks_of_perm (h : fields.Perm r.fields) (cap : Int) :
    ({ r with fields := fields } : Record).Breaks cap ↔ r.Breaks cap := by
  rw [Breaks, Breaks, minimalSize_of_perm h]
  simp only [h.mem_iff]

/-- A record that keeps the contract can be told about in any order of its members. -/
theorem isTellable_of_perm (h : fields.Perm r.fields) (hb : ¬ r.Breaks cap) :
    ({ r with fields := fields } : Record).isTellable cap = r.isTellable cap := by
  rw [isTellable, isTellable, diagnose_of_not_breaks hb,
    diagnose_of_not_breaks (mt (breaks_of_perm h cap).1 hb), minimalSize_of_perm h]
  by_cases hlt : r.minimalSize cap < r.actualSize
  · rw [if_pos hlt, if_pos hlt]
    simp only [finding, minimalSize_of_perm h]
    rfl
  · rw [if_neg hlt, if_neg hlt]

end Record

/-- The declared order of the members makes no difference to a diagnosis. In any order the minimal
size is the same, the diagnosis fails for all orders or for none, and it gives a finding for all or
for none. The suggested order has all members of the record, by size, by name and then as declared,
and so the findings are the same as well, unless members of one size and one name have different
alignments. -/
theorem verdict_of_perm {r : Record} (h : fields.Perm r.fields) (limited : Bool) (cap : Int) :
    let r' : Record := { r with fields := fields }
    (∀ q ∈ [r, r'], ∀ (t : Tally) (sc : Scene σ), sc.limited = limited →
      (t.diagnose cap q : Action ε σ (Except Failure Tally)).result sc =
        .ok ((verdict limited cap q).map t.add)) ∧
      r'.minimalSize cap = r.minimalSize cap ∧
      r'.effectiveAlignment cap = r.effectiveAlignment cap ∧
      ((∃ e, verdict limited cap r' = .error e) ↔ ∃ e, verdict limited cap r = .error e) ∧
      (verdict limited cap r' = .ok none ↔ verdict limited cap r = .ok none) ∧
      (∀ q ∈ [r, r'], ∀ f, verdict limited cap q = .ok (some f) →
        f.suggestedOrder.Perm r.fields ∧ Arranges q.fields f.suggestedOrder) ∧
      ((∀ a ∈ r.fields, ∀ b ∈ r.fields,
          a.size = b.size → a.name = b.name → a.alignment = b.alignment) →
        ∀ f f', verdict limited cap r = .ok (some f) → verdict limited cap r' = .ok (some f') →
          f' = f) := by
  intro r'
  have hsize : r'.minimalSize cap = r.minimalSize cap := Record.minimalSize_of_perm h cap
  have hbreaks : r'.Breaks cap ↔ r.Breaks cap := Record.breaks_of_perm h cap
  have htold : ¬ r.Breaks cap → r'.isTellable cap = r.isTellable cap := Record.isTellable_of_perm h
  refine ⟨?_, hsize, rfl, ?_, ?_, ?_, ?_⟩
  · rintro q - t sc rfl
    exact t.result_diagnose cap q sc
  · rw [exists_verdict_eq_error_iff, exists_verdict_eq_error_iff, hbreaks]
    by_cases hb : r.Breaks cap
    · simp [hb]
    · rw [htold hb]
  · rw [verdict_eq_ok_none_iff, verdict_eq_ok_none_iff, hbreaks, hsize]
    apply and_congr_right
    intro hb
    rw [htold hb]
  · intro q hq f hv
    obtain rfl := finding_of_verdict hv
    refine ⟨(suggestedOrder_perm q.fields).trans ?_, arranges_iff.2 rfl⟩
    simp only [List.mem_cons, List.not_mem_nil, or_false] at hq
    rcases hq with rfl | rfl
    · rfl
    · exact h
  · intro hfields f f' hv hv'
    obtain rfl := finding_of_verdict hv
    obtain rfl := finding_of_verdict hv'
    rw [Record.finding, Record.finding, hsize, suggestedOrder_of_perm hfields h]

/-- A record with two members that nothing tells apart. -/
def mixed : Record where
  name := "M"
  fields := [{ name := "c", size := 1 }, { name := "x", size := 4, alignment := 4 },
    { name := "x", size := 4, alignment := 4 }, { name := "p", size := 8, alignment := 8 },
    { name := "a", size := 4, alignment := 4 }]
  actualSize := 32
  alignment := 8

/-- The finding is the same if the members are declared the other way round. -/
theorem verdict_mixed :
    let reversed : Record := { mixed with fields := mixed.fields.reverse }
    mixed.fields.reverse.Perm mixed.fields ∧
      ∃ f, verdict true 8 mixed = .ok (some f) ∧ verdict true 8 reversed = .ok (some f) ∧
        f.suggestedOrder.Perm mixed.fields ∧ Arranges mixed.fields f.suggestedOrder := by
  intro reversed
  have hperm : mixed.fields.reverse.Perm mixed.fields := List.reverse_perm _
  obtain ⟨-, -, -, -, -, harranged, hsame⟩ :=
    verdict_of_perm (ε := Failure) (σ := Unit) hperm true 8
  have hmixed : verdict true 8 mixed = .ok (some (mixed.finding 8)) := by
    rw [verdict_of_not_breaks (by decide +kernel) (by decide +kernel), if_pos (by decide +kernel)]
  have hreversed : verdict true 8 reversed = .ok (some (reversed.finding 8)) := by
    rw [verdict_of_not_breaks (by decide +kernel) (by decide +kernel), if_pos (by decide +kernel)]
  have hfields : ∀ a ∈ mixed.fields, ∀ b ∈ mixed.fields,
      a.size = b.size → a.name = b.name → a.alignment = b.alignment := by decide
  have heq := hsame hfields _ _ hmixed hreversed
  exact ⟨hperm, mixed.finding 8, hmixed, heq ▸ hreversed, harranged mixed (by simp) _ hmixed⟩

end PaddingAudit
