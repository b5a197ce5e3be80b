import Mathlib.Data.List.Nodup

/-!
# Entries by key

A list of entries, each with a key and a value. The first entry for a key is the one that counts.
Where no key comes twice, every entry counts.
-/

namespace PaddingAudit

section Lookups

variable {κ ν : Type} [BEq κ] [LawfulBEq κ] {entries : List (κ × ν)} {key other : κ} {value : ν}

theorem lookup_cons_eq_ite [DecidableEq κ] (entries : List (κ × ν)) (key other : κ) (value : ν) :
    ((key, value) :: entries).lookup other =
      if other = key then some value else entries.lookup other := by
  rw [List.lookup_cons]
  by_cases h : other = key
  · simp [h]
  · rw [beq_eq_false_iff_ne.2 h, if_neg h]

theorem lookup_filter {p : κ → Bool} (h : p key = true) (entries : List (κ × ν)) :
    (entries.filter fun entry => p entry.1).lookup key = entries.lookup key := by
  induction entries with
  | nil => rfl
  | cons entry entries ih =>
    obtain ⟨first, value⟩ := entry
    by_cases hkey : key = first
    · subst hkey
      rw [List.filter_cons, if_pos h, List.lookup_cons_self, List.lookup_cons_self]
    · have hne : (key == first) = false := beq_eq_false_iff_ne.2 hkey
      rw [List.filter_cons, List.lookup_cons, hne]
      split
      · rw [List.lookup_cons, hne]
        exact ih
      · exact ih

theorem lookup_filter_ne (h : other ≠ key) (entries : List (κ × ν)) :
    (entries.filter fun entry => entry.1 != key).lookup other = entries.lookup other :=
  lookup_filter (p := (· != key)) (bne_iff_ne.2 h) entries

/-- An entry in front, in place of all others for its key. -/
theorem lookup_cons_filter_ne [DecidableEq κ] (entries : List (κ × ν)) (key other : κ)
    (value : ν) :
    ((key, value) :: entries.filter fun entry => entry.1 != key).lookup other =
      if other = key then some value else entries.lookup other := by
  rw [lookup_cons_eq_ite]
  split
  · rfl
  · rename_i h
    exact lookup_filter_ne h entries

theorem mem_of_lookup (h : entries.lookup key = some value) : (key, value) ∈ entries := by
  obtain ⟨before, after, hsplit, -⟩ := List.lookup_eq_some_iff.1 h
  simp [hsplit]

theorem lookup_of_mem (hkeys : (entries.map Prod.fst).Nodup) (h : (key, value) ∈ entries) :
    entries.lookup key = some value := by
  obtain ⟨before, after, hsplit⟩ := List.append_of_mem h
  rw [hsplit, List.map_append, List.map_cons, List.nodup_append] at hkeys
  rw [List.lookup_eq_some_iff]
  refine ⟨before, after, hsplit, fun entry hentry => ?_⟩
  have hne := hkeys.2.2 entry.1 (List.mem_map_of_mem hentry) key List.mem_cons_self
  simpa using hne.symm

end Lookups

section Firsts

variable {α : Type} [BEq α] [LawfulBEq α]

theorem eraseDups_filter (p : α → Bool) : (l : List α) →
    (l.filter p).eraseDups = l.eraseDups.filter p
  | [] => rfl
  | a :: l => by
    have htail := eraseDups_filter p (l.filter fun b => !b == a)
    rw [List.eraseDups_cons]
    by_cases ha : p a
    · rw [List.filter_cons_of_pos ha, List.filter_cons_of_pos ha, List.eraseDups_cons, ← htail,
        List.filter_comm]
    · have hsame : (l.filter p).filter (fun b => !b == a) = l.filter p := by
        rw [List.filter_eq_self]
        intro b hb
        have hpb := (List.mem_filter.1 hb).2
        by_contra hba
        simp only [Bool.not_eq_true, Bool.not_eq_false', beq_iff_eq] at hba
        exact ha (hba ▸ hpb)
      rw [List.filter_cons_of_neg ha, List.filter_cons_of_neg ha, ← htail, List.filter_comm,
        hsame]
termination_by l => l.length
decreasing_by exact Nat.lt_succ_of_le (List.length_filter_le _ _)

theorem nodup_eraseDups (l : List α) : l.eraseDups.Nodup := by
  induction l with
  | nil => exact List.nodup_nil
  | cons a l ih =>
    rw [List.eraseDups_cons, eraseDups_filter, List.nodup_cons]
    refine ⟨by simp, ih.filter _⟩

end Firsts

end PaddingAudit
