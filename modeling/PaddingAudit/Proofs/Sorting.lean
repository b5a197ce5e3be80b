import Mathlib.Data.List.Perm.Basic

/-!
# Stable sorting

A sorted list is in order, and keeps the order of what the comparison does not tell apart. Both
together leave one possible result: `ranked` sorts items with their positions, and no two of them
are left untold apart. What is shown of the items alone does not depend on the order in which they
were given, provided that the comparison tells apart whatever is shown to be different.
-/

namespace PaddingAudit

variable {α β : Type} {le : α → α → Bool} {l l' : List α}

/-- A sorted list is in order, and where the order leaves it open it is as it was before: if `R`
held between each item and those behind it, it still does among items that are not told apart. -/
theorem pairwise_mergeSort_of_pairwise {R : α → α → Prop}
    (trans : ∀ a b c, le a b → le b c → le a c) (total : ∀ a b, le a b || le b a)
    (h : l.Pairwise R) : (l.mergeSort le).Pairwise fun a b => le a b ∧ (le b a → R a b) := by
  induction l with
  | nil => simp
  | cons a l ih =>
    rw [List.pairwise_cons] at h
    -- The first item of the list is put in front of all that are not to come before it.
    obtain ⟨front, back, hsorted, hrest, hfront⟩ := List.mergeSort_cons trans total a l
    have hle : (front ++ a :: back).Pairwise fun a b => le a b := by
      rw [← hsorted]
      exact List.pairwise_mergeSort trans total _
    have hmem : ∀ b ∈ back, b ∈ l := by
      intro b hb
      have hin : b ∈ l.mergeSort le := hrest ▸ List.mem_append_right front hb
      exact List.mem_mergeSort.1 hin
    rw [hsorted]
    replace ih := ih h.2
    rw [hrest, List.pairwise_append] at ih
    rw [List.pairwise_append, List.pairwise_cons] at hle ⊢
    refine ⟨ih.1, ⟨fun b hb => ⟨hle.2.1.1 b hb, fun _ => h.1 b (hmem b hb)⟩, ih.2.1⟩, ?_⟩
    intro b hb c hc
    rcases List.mem_cons.1 hc with rfl | hc
    · refine ⟨hle.2.2 b hb c (by simp), fun hcb => ?_⟩
      have hnot := hfront b hb
      rw [hcb] at hnot
      cases hnot
    · exact ih.2.2 b hb c hc

/-- The items of a list with their positions, sorted by the items. -/
def ranked (le : α → α → Bool) (l : List α) : List (α × Nat) :=
  l.zipIdx.mergeSort fun x y => le x.1 y.1

theorem ranked_perm (le : α → α → Bool) (l : List α) : (ranked le l).Perm l.zipIdx :=
  List.mergeSort_perm _ _

theorem map_fst_ranked (le : α → α → Bool) (l : List α) :
    (ranked le l).map Prod.fst = l.mergeSort le := by
  conv_rhs => rw [← List.zipIdx_map_fst 0 l]
  exact List.map_mergeSort fun _ _ _ _ => rfl

theorem pairwise_zipIdx (l : List α) : l.zipIdx.Pairwise fun x y => x.2 < y.2 := by
  rw [← List.pairwise_map, List.zipIdx_map_snd]
  exact List.pairwise_lt_range'

/-- Items are in order, and those that are not told apart are by position. -/
theorem pairwise_ranked (trans : ∀ a b c, le a b → le b c → le a c)
    (total : ∀ a b, le a b || le b a) (l : List α) :
    (ranked le l).Pairwise fun x y => le x.1 y.1 ∧ (le y.1 x.1 → x.2 < y.2) :=
  pairwise_mergeSort_of_pairwise (fun x y z => trans x.1 y.1 z.1) (fun x y => total x.1 y.1)
    (pairwise_zipIdx l)

/-- Items with positions can be ranked in one way only. -/
theorem eq_of_pairwise_rank {xs ys : List (α × Nat)}
    (hx : xs.Pairwise fun x y => le x.1 y.1 ∧ (le y.1 x.1 → x.2 < y.2))
    (hy : ys.Pairwise fun x y => le x.1 y.1 ∧ (le y.1 x.1 → x.2 < y.2)) (hperm : xs.Perm ys) :
    xs = ys := by
  refine hperm.eq_of_pairwise ?_ hx hy
  intro x y _ _ hxy hyx
  have := hxy.2 hyx.1
  have := hyx.2 hxy.1
  omega

/-- Two lists of the same items that are both in order show the same, place by place, if items that
are not told apart do. -/
theorem map_eq_map_of_pairwise {f : α → β}
    (hf : ∀ a ∈ l, ∀ b ∈ l, le a b → le b a → f a = f b) (h : l.Pairwise fun a b => le a b)
    (h' : l'.Pairwise fun a b => le a b) (hperm : l.Perm l') : l.map f = l'.map f := by
  induction l generalizing l' with
  | nil => simp [hperm.nil_eq.symm]
  | cons a l ih =>
    rw [List.pairwise_cons] at h
    obtain ⟨front, back, rfl⟩ := List.append_of_mem (hperm.subset List.mem_cons_self)
    -- In the second list only items that are not told apart from `a` stand in front of it.
    have hfront : ∀ b ∈ front, f b = f a := by
      intro b hb
      have hmem : b ∈ a :: l := hperm.symm.subset (by simp [hb])
      have hba : le b a := (List.pairwise_append.1 h').2.2 b hb a (by simp)
      rcases List.mem_cons.1 hmem with rfl | hbl
      · rfl
      · exact hf b hmem a (by simp) hba (h.1 b hbl)
    have hmap : front.map f = List.replicate front.length (f a) := by
      simpa [List.map_eq_replicate_iff] using hfront
    have hrest : l.map f = (front ++ back).map f := by
      apply ih
      · intro b hb c hc
        exact hf b (by simp [hb]) c (by simp [hc])
      · exact h.2
      · exact h'.sublist (by simp)
      · exact (hperm.trans List.perm_middle).cons_inv
    calc (a :: l).map f = f a :: (List.replicate front.length (f a) ++ back.map f) := by
          rw [List.map_cons, hrest, List.map_append, hmap]
      _ = List.replicate front.length (f a) ++ f a :: back.map f := by
          rw [← List.cons_append, ← List.replicate_succ, List.replicate_succ', List.append_assoc,
            List.singleton_append]
      _ = (front ++ a :: back).map f := by rw [List.map_append, List.map_cons, hmap]

/-- What a sorted list shows does not depend on the order in which its items were given. -/
theorem map_mergeSort_of_perm {f : α → β} (trans : ∀ a b c, le a b → le b c → le a c)
    (total : ∀ a b, le a b || le b a)
    (hf : ∀ a ∈ l, ∀ b ∈ l, le a b → le b a → f a = f b) (h : l'.Perm l) :
    (l'.mergeSort le).map f = (l.mergeSort le).map f := by
  have hperm : (l.mergeSort le).Perm (l'.mergeSort le) :=
    (List.mergeSort_perm l le).trans (h.symm.trans (List.mergeSort_perm l' le).symm)
  symm
  apply map_eq_map_of_pairwise _ (List.pairwise_mergeSort trans total l)
    (List.pairwise_mergeSort trans total l') hperm
  intro a ha b hb
  exact hf a (List.mem_mergeSort.1 ha) b (List.mem_mergeSort.1 hb)

/-- Sorting gives the same list if all items of the list are told apart. -/
theorem mergeSort_eq_of_perm (trans : ∀ a b c, le a b → le b c → le a c)
    (total : ∀ a b, le a b || le b a) (hl : ∀ a ∈ l, ∀ b ∈ l, le a b → le b a → a = b)
    (h : l'.Perm l) : l'.mergeSort le = l.mergeSort le := by
  simpa using map_mergeSort_of_perm (f := id) trans total hl h

end PaddingAudit
