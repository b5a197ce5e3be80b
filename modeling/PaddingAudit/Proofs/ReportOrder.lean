import PaddingAudit.Proofs.ReportDecoding
import PaddingAudit.Proofs.Sorting

/-!
# The order of a report

Lines and documents list findings in one order. For the order by savings they come to it in two
ways: lines are sorted once, by savings and then by text, while a document is sorted by text and
then once more by savings. That the two agree is a matter of stability. Sorting keeps the order of
what it does not tell apart, and so the second sorting leaves to the first what it leaves open
itself.
-/

namespace PaddingAudit

namespace SortOrder

/-- One finding comes before another for what the order looks at. -/
def Before : SortOrder → Finding → Finding → Prop
  | .location, a, b => a.plainLine < b.plainLine
  | .savings, a, b => b.savings < a.savings ∨ a.savings = b.savings ∧ a.plainLine < b.plainLine

/-- Two findings are the same in what the order looks at. -/
def Ties : SortOrder → Finding → Finding → Prop
  | .location, a, b => a.plainLine = b.plainLine
  | .savings, a, b => a.savings = b.savings ∧ a.plainLine = b.plainLine

/-- One finding comes before another, or else they tie and it was there first. Each finding is given
with its position. -/
def Ranks (order : SortOrder) (x y : Finding × Nat) : Prop :=
  order.Before x.1 y.1 ∨ order.Ties x.1 y.1 ∧ x.2 < y.2

end SortOrder

namespace Report

variable {order : SortOrder} {a b : Finding} {x y : Finding × Nat}

/-- Whether a finding may stand in front of another. -/
def inOrder (order : SortOrder) (a b : Finding) : Bool :=
  compare order (a, a.plainLine) (b, b.plainLine)

theorem compare_location {a b : Finding × String} : compare .location a b ↔ a.2 ≤ b.2 := by
  simp [compare, lineOrder]

theorem compare_savings {a b : Finding × String} :
    compare .savings a b ↔
      b.1.savings < a.1.savings ∨ a.1.savings = b.1.savings ∧ a.2 ≤ b.2 := by
  simp [compare, savingsOrder]

theorem compare_trans (order : SortOrder) (a b c : Finding × String) (hab : compare order a b)
    (hbc : compare order b c) : compare order a c := by
  cases order with
  | location =>
    rw [compare_location] at *
    exact String.le_trans hab hbc
  | savings =>
    rw [compare_savings] at *
    rcases hab with hab | ⟨hab, hline⟩ <;> rcases hbc with hbc | ⟨hbc, hline'⟩
    · exact .inl (by omega)
    · exact .inl (by omega)
    · exact .inl (by omega)
    · exact .inr ⟨hab.trans hbc, String.le_trans hline hline'⟩

theorem compare_total (order : SortOrder) (a b : Finding × String) :
    compare order a b || compare order b a := by
  rw [Bool.or_eq_true]
  cases order with
  | location =>
    rw [compare_location, compare_location]
    exact String.le_total a.2 b.2
  | savings =>
    rw [compare_savings, compare_savings]
    rcases Int.lt_trichotomy a.1.savings b.1.savings with h | h | h
    · exact .inr (.inl h)
    · rcases String.le_total a.2 b.2 with hline | hline
      · exact .inl (.inr ⟨h, hline⟩)
      · exact .inr (.inr ⟨h.symm, hline⟩)
    · exact .inl (.inl h)

/-- What an order does not tell apart has the same line. -/
theorem snd_eq_of_compare {a b : Finding × String} (hab : compare order a b)
    (hba : compare order b a) : a.2 = b.2 := by
  cases order with
  | location => exact String.le_antisymm (compare_location.1 hab) (compare_location.1 hba)
  | savings =>
    rcases compare_savings.1 hab with hlt | ⟨heq, hline⟩ <;>
      rcases compare_savings.1 hba with hlt' | ⟨heq', hline'⟩
    · omega
    · omega
    · omega
    · exact String.le_antisymm hline hline'

theorem inOrder_location : inOrder .location a b ↔ a.plainLine ≤ b.plainLine :=
  compare_location

theorem inOrder_savings :
    inOrder .savings a b ↔
      b.savings < a.savings ∨ a.savings = b.savings ∧ a.plainLine ≤ b.plainLine :=
  compare_savings

theorem inOrder_trans (order : SortOrder) (a b c : Finding) (hab : inOrder order a b)
    (hbc : inOrder order b c) : inOrder order a c :=
  compare_trans order _ _ _ hab hbc

theorem inOrder_total (order : SortOrder) (a b : Finding) :
    inOrder order a b || inOrder order b a :=
  compare_total order _ _

/-- A finding ranks before another if it may stand in front, and if both may, then by position. -/
theorem ranks_iff :
    order.Ranks x y ↔ inOrder order x.1 y.1 ∧ (inOrder order y.1 x.1 → x.2 < y.2) := by
  unfold SortOrder.Ranks SortOrder.Before SortOrder.Ties
  cases order with
  | location =>
    rw [inOrder_location, inOrder_location]
    grind
  | savings =>
    rw [inOrder_savings, inOrder_savings]
    grind

/-- Findings with their positions can be ranked in one way only. -/
theorem eq_of_ranks {l l' : List (Finding × Nat)} (h : l.Pairwise order.Ranks)
    (h' : l'.Pairwise order.Ranks) (hperm : l.Perm l') : l = l' :=
  eq_of_pairwise_rank (h.imp ranks_iff.1) (h'.imp ranks_iff.1) hperm

/-- The findings with their positions, as the lines of a report list them. -/
def ranking (findings : List Finding) (order : SortOrder) : List (Finding × Nat) :=
  findings.zipIdx.mergeSort fun x y => inOrder order x.1 y.1

theorem ranking_perm (findings : List Finding) (order : SortOrder) :
    (ranking findings order).Perm findings.zipIdx :=
  ranked_perm (inOrder order) findings

theorem pairwise_ranking (findings : List Finding) (order : SortOrder) :
    (ranking findings order).Pairwise order.Ranks :=
  (pairwise_ranked (inOrder_trans order) (inOrder_total order) findings).imp ranks_iff.2

/-! ### Lines and documents -/

/-- Lines are sorted as findings with positions are. -/
theorem sort_lines (findings : List Finding) (order : SortOrder) :
    (findings.map fun f => (f, f.line false)).mergeSort (compare order) =
      (ranking findings order).map fun x => (x.1, x.1.line false) := by
  have hsort : ((ranking findings order).map fun x => (x.1, x.1.line false)) =
      (findings.zipIdx.map fun x => (x.1, x.1.line false)).mergeSort (compare order) :=
    List.map_mergeSort fun _ _ _ _ => rfl
  have hpairs : (findings.zipIdx.map fun x => (x.1, x.1.line false)) =
      findings.map fun f => (f, f.line false) := by
    conv_rhs => rw [← List.zipIdx_map_fst 0 findings, List.map_map]
    rfl
  rw [hsort, hpairs]

theorem ranks_savings_iff :
    SortOrder.savings.Ranks x y ↔ y.1.savings ≤ x.1.savings ∧
      (x.1.savings ≤ y.1.savings → SortOrder.location.Ranks x y) := by
  unfold SortOrder.Ranks SortOrder.Before SortOrder.Ties
  grind

/-- Sorting by savings what is ranked by line ranks it by savings. -/
theorem sort_ranking (findings : List Finding) :
    ((ranking findings .location).mergeSort fun x y => decide (y.1.savings ≤ x.1.savings)) =
      ranking findings .savings := by
  refine eq_of_ranks ?_ (pairwise_ranking findings .savings) ?_
  · refine (pairwise_mergeSort_of_pairwise ?_ ?_ (pairwise_ranking findings .location)).imp ?_
    · intro x y z hxy hyz
      simp only [decide_eq_true_eq] at *
      omega
    · intro x y
      simp only [Bool.or_eq_true, decide_eq_true_eq]
      omega
    · intro x y h
      simp only [decide_eq_true_eq] at h
      exact ranks_savings_iff.2 h
  · have hperm := ranking_perm findings .location
    exact (List.mergeSort_perm _ _).trans (hperm.trans (ranking_perm findings .savings).symm)

/-- A document is sorted as findings with positions are. -/
theorem sequence_eq (findings : List Finding) (order : SortOrder) :
    sequence findings order = (ranking findings order).map Prod.fst := by
  have hlocation : (ranking findings .location).map Prod.fst =
      findings.mergeSort fun a b => decide (a.plainLine ≤ b.plainLine) :=
    map_fst_ranked (inOrder .location) findings
  cases order with
  | location => exact hlocation.symm
  | savings =>
    have hsavings : (ranking findings .savings).map Prod.fst =
        ((ranking findings .location).map Prod.fst).mergeSort
          fun a b => decide (b.savings ≤ a.savings) := by
      rw [← sort_ranking]
      exact List.map_mergeSort fun _ _ _ _ => rfl
    rw [hsavings, hlocation]
    rfl

theorem lines_eq_map_ranking (findings : List Finding) (order : SortOrder) :
    lines findings false order = (ranking findings order).map fun x => x.1.line false := by
  rw [lines, sort_lines, List.map_map]
  rfl

/-- Lines are written if and only if no number in them has more digits than allowed. -/
theorem listing_eq (findings : List Finding) (verbose : Bool) (order : SortOrder) :
    listing findings verbose order =
      if ∀ f ∈ findings, ∀ n ∈ f.lineNumbers verbose, n.natAbs < 10 ^ Text.maxDigits then
        .ok (lines findings verbose order)
      else .error .unwritable := by
  simp only [listing, all_isWritable_iff]

/-- A document has all the numbers that the lines without the recommended order have. -/
theorem lineNumbers_subset (f : Finding) : f.lineNumbers false ⊆ f.numbers := by
  intro n hn
  simp only [Finding.lineNumbers, Bool.false_eq_true, if_false, List.append_nil,
    List.mem_append] at hn
  simp only [Finding.numbers, List.mem_append]
  rcases hn with hn | hn
  · refine .inl (.inl ?_)
    rcases List.mem_cons.1 hn with rfl | hn
    · simp
    · simp [List.mem_singleton.1 hn]
  · exact .inl (.inr hn)

theorem listing_of_document {findings : List Finding} {text : String}
    (h : document findings order = .ok text) :
    ∃ listed, decode text = some listed ∧
      listing findings false order = .ok (listed.map fun f => f.line false) := by
  rw [document_eq] at h
  split at h
  · rename_i hshort
    cases h
    refine ⟨sequence findings order, decode_render _, ?_⟩
    rw [listing_eq, if_pos fun f hf n hn => hshort f hf n (lineNumbers_subset f hn),
      lines_eq_map_ranking, sequence_eq, List.map_map]
    rfl
  · cases h

/-- A report lists the same findings in the same order, be it as lines or as a document. There is
one ranking of the findings with their positions: they are told apart by what the order looks at,
and where this is the same, by position. The lines are the lines of this ranking, and the document
is read back as its findings. Lines are written unless a number in them is too long, and a document
unless a number of a finding is, what it saves among them. So where there is a document there are
lines as well, and they are those of the findings that the document is read back as. -/
theorem listing_and_document (findings : List Finding) (name : String) :
    let order := SortOrder.ofName name
    ∃ ranked : List (Finding × Nat), ∃ text : String,
      ranked.Perm findings.zipIdx ∧
      (ranked.Pairwise fun x y =>
        order.Before x.1 y.1 ∨ order.Ties x.1 y.1 ∧ x.2 < y.2) ∧
      ((findings.map fun f => (f, f.line false)).mergeSort (compare order) =
        ranked.map fun x => (x.1, x.1.line false)) ∧
      (listing findings false order =
        if ∀ f ∈ findings, ∀ n ∈ f.lineNumbers false, n.natAbs < 10 ^ Text.maxDigits then
          .ok (ranked.map fun x => x.1.line false)
        else .error .unwritable) ∧
      decode text = some (ranked.map Prod.fst) ∧
      (document findings order =
        if ∀ f ∈ findings, ∀ n ∈ f.numbers, n.natAbs < 10 ^ Text.maxDigits then .ok text
        else .error .unwritable) ∧
      ∀ written, document findings order = .ok written → ∃ listed, decode written = some listed ∧
        listing findings false order = .ok (listed.map fun f => f.line false) := by
  intro order
  refine ⟨ranking findings order, json findings order, ranking_perm findings order,
    pairwise_ranking findings order, sort_lines findings order, ?_, ?_,
    document_eq findings order, fun _ => listing_of_document⟩
  · rw [listing_eq, lines_eq_map_ranking]
  · rw [← sequence_eq]
    exact decode_render _

/-- A finding can have a line and no document. -/
theorem listing_vast :
    let large := vast (10 ^ Text.maxDigits)
    listing [large] false .location = .ok [large.line false] ∧
      document [large] .location = .error .unwritable := by
  intro large
  refine ⟨?_, document_of_long_savings List.mem_cons_self ?_ .location⟩
  · rw [listing, if_pos (by decide +kernel), lines, List.map_singleton, List.mergeSort_singleton]
    rfl
  · rw [savings_vast, Int.natAbs_natCast]

end Report

end PaddingAudit
