import PaddingAudit.Proofs.ReportOrder

/-!
# Reports of permuted findings

Findings come in the order in which the files were checked, and a report does not show it. Lines are
sorted by all that they show, so that findings that are not told apart have the same line. A
document shows more than the line it is sorted by. It is the same all the same if different findings
have different lines.
-/

namespace PaddingAudit.Report

variable {findings others : List Finding} {order : SortOrder}

theorem lines_perm (findings : List Finding) (verbose : Bool) (order : SortOrder) :
    (lines findings verbose order).Perm (findings.map fun f => f.line verbose) := by
  have hsort := (List.mergeSort_perm (findings.map fun f => (f, f.line verbose))
    (compare order)).map Prod.snd
  simpa [lines, Function.comp_def] using hsort

theorem lines_of_perm (h : others.Perm findings) (verbose : Bool) (order : SortOrder) :
    lines others verbose order = lines findings verbose order := by
  apply map_mergeSort_of_perm (compare_trans order) (compare_total order)
  · intro a _ b _
    exact snd_eq_of_compare
  · exact h.map _

theorem listing_of_perm (h : others.Perm findings) (verbose : Bool) (order : SortOrder) :
    listing others verbose order = listing findings verbose order := by
  rw [listing, listing, h.all_eq, lines_of_perm h]

theorem pairwise_sequence (findings : List Finding) (order : SortOrder) :
    (sequence findings order).Pairwise fun a b => inOrder order a b := by
  rw [sequence_eq, List.pairwise_map]
  apply (pairwise_ranking findings order).imp
  intro x y hxy
  exact (ranks_iff.1 hxy).1

/-- No two different findings have the same plain line. -/
def Distinct (findings : List Finding) : Prop :=
  ∀ f ∈ findings, ∀ g ∈ findings, f.plainLine = g.plainLine → f = g

theorem sequence_of_perm (hd : Distinct findings) (h : others.Perm findings) (order : SortOrder) :
    sequence others order = sequence findings order := by
  have hothers : (sequence others order).Perm findings := (sequence_perm others order).trans h
  apply List.Perm.eq_of_pairwise _ (pairwise_sequence others order)
    (pairwise_sequence findings order) (hothers.trans (sequence_perm findings order).symm)
  intro f g hf hg hfg hgf
  apply hd f (hothers.subset hf) g ((sequence_perm findings order).subset hg)
  exact snd_eq_of_compare hfg hgf

theorem json_of_perm (hd : Distinct findings) (h : others.Perm findings) (order : SortOrder) :
    json others order = json findings order := by
  rw [json, json, sequence_of_perm hd h]

theorem document_of_perm (hd : Distinct findings) (h : others.Perm findings) (order : SortOrder) :
    document others order = document findings order := by
  rw [document, document, h.all_eq, json_of_perm hd h]

/-- A report does not depend on the order in which its findings were collected. Its lines are those
of the single findings, in an order that the findings alone decide, and the same is true of the
document if no two different findings have the same plain line. Either can only fail to be written,
and whether it does is again a matter of the findings alone: a number is too long, which may be one
of the findings themselves or, in a document, what they save. -/
theorem reports_of_perm (h : others.Perm findings) (verbose : Bool) (name : String) :
    let order := SortOrder.ofName name
    lines others verbose order = lines findings verbose order ∧
      (lines findings verbose order).Perm (findings.map fun f => f.line verbose) ∧
      listing others verbose order = listing findings verbose order ∧
      (listing findings verbose order =
        if ∀ f ∈ findings, ∀ n ∈ f.lineNumbers verbose, n.natAbs < 10 ^ Text.maxDigits then
          .ok (lines findings verbose order)
        else .error .unwritable) ∧
      ((∀ f ∈ findings, ∀ g ∈ findings, f.plainLine = g.plainLine → f = g) →
        json others order = json findings order ∧
          document others order = document findings order) ∧
      document findings order =
        if ∀ f ∈ findings, ∀ n ∈ f.numbers, n.natAbs < 10 ^ Text.maxDigits then
          .ok (json findings order)
        else .error .unwritable := by
  intro order
  refine ⟨lines_of_perm h verbose order, lines_perm findings verbose order,
    listing_of_perm h verbose order, listing_eq findings verbose order, ?_,
    document_eq findings order⟩
  intro hd
  exact ⟨json_of_perm hd h order, document_of_perm hd h order⟩

/-! ### Two reports -/

/-- A finding of a unit that saves eight bytes. -/
def slight (unit : String) : Finding where
  recordName := "S"
  unit := unit
  location := none
  minimalSize := 16
  actualSize := 24
  suggestedOrder := [{ name := "p", size := 8 }, { name := "c", size := 1 }]

/-- Findings that save the same are listed in one order, whichever of them came first. -/
theorem reports_slight :
    let findings := [slight "a.c", slight "b.c", slight "a.c"]
    let others := [slight "b.c", slight "a.c", slight "a.c"]
    listing others true .savings = listing findings true .savings ∧
      document others .savings = document findings .savings ∧
      (document findings .savings).isOk := by
  intro findings others
  have hperm : others.Perm findings := .swap _ _ _
  have hdistinct : ∀ f ∈ findings, ∀ g ∈ findings, f.plainLine = g.plainLine → f = g := by
    decide +kernel
  have hreport := reports_of_perm hperm true "savings"
  exact ⟨hreport.2.2.1, (hreport.2.2.2.2.1 hdistinct).2, by decide +kernel⟩

theorem plainLine_ne_of_unit {f g : Finding} {c d : Char} {cs ds : List Char}
    (hf : f.unit.toList = c :: cs) (hg : g.unit.toList = d :: ds) (h : c ≠ d) :
    f.plainLine ≠ g.plainLine := by
  intro heq
  have hlist := congrArg String.toList heq
  simp only [Finding.plainLine, String.toList_append, hf, hg, List.cons_append] at hlist
  exact h (List.cons.inj hlist).1

/-- There is no document for two findings with different lines, in neither order, although there are
lines for both. -/
theorem document_vast_slight :
    let large := vast (10 ^ Text.maxDigits)
    let findings := [large, slight "a.c"]
    let others := [slight "a.c", large]
    others.Perm findings ∧
      (∀ f ∈ findings, ∀ g ∈ findings, f.plainLine = g.plainLine → f = g) ∧
      (∃ ls, listing findings false .location = .ok ls ∧ listing others false .location = .ok ls) ∧
      document findings .location = .error .unwritable ∧
      document others .location = .error .unwritable := by
  intro large findings others
  have hperm : others.Perm findings := .swap _ _ _
  have hlines : large.plainLine ≠ (slight "a.c").plainLine :=
    plainLine_ne_of_unit (show "u".toList = ['u'] by decide)
      (show "a.c".toList = ['a', '.', 'c'] by decide) (by decide)
  have hlong : 10 ^ Text.maxDigits ≤ large.savings.natAbs := by
    rw [savings_vast, Int.natAbs_natCast]
  refine ⟨hperm, ?_, ⟨lines findings false .location, ?_, ?_⟩, ?_, ?_⟩
  · intro f hf g hg hfg
    simp only [findings, List.mem_cons, List.not_mem_nil, or_false] at hf hg
    rcases hf with rfl | rfl <;> rcases hg with rfl | rfl
    · rfl
    · exact absurd hfg hlines
    · exact absurd hfg.symm hlines
    · rfl
  · rw [listing, if_pos (by decide +kernel)]
  · rw [listing_of_perm hperm, listing, if_pos (by decide +kernel)]
  · exact document_of_long_savings (by simp [findings]) hlong .location
  · exact document_of_long_savings (by simp [others]) hlong .location

end PaddingAudit.Report
