import Mathlib.Data.List.Infix
import PaddingAudit.Proofs.Recency

/-!
# Smaller and larger caches

Two caches are asked the same, and one of them has more room. A lookup that only the larger cache
can answer is a touch there and none in the smaller one, so the two come to order their entries
differently. All the same the larger cache holds whatever the smaller one holds, and what both hold
stands in the same order. Evictions respect this because the smaller cache is full from the moment
it first drops an entry, and up to that moment the two are the same.
-/

namespace PaddingAudit.Cache

/-- A list stays within another one when both lose their ends, if the longer one loses no more items
than the shorter one. -/
theorem take_sublist_take {α : Type} {s l : List α} (h : s.Sublist l) {i j : Nat}
    (hij : l.length - (s.length - i) ≤ j) : (s.take i).Sublist (l.take j) := by
  have hdrop := (h.reverse.drop (s.length - i)).reverse
  rw [List.drop_reverse, List.drop_reverse, List.reverse_reverse, List.reverse_reverse] at hdrop
  have hs : s.take (s.length - (s.length - i)) = s.take i := by
    rw [List.take_eq_take_iff]
    omega
  exact (hs ▸ hdrop).trans (List.take_prefix_take_left hij).sublist

variable {small large c : Cache} {offset : Int} {layout : Layout}

theorem mem_entries_of_find? (h : c.find? offset = some layout) : (offset, layout) ∈ c.entries :=
  mem_of_lookup h

theorem others_of_not_mem (h : offset ∉ c.keys) : c.others offset = c.entries := by
  rw [others, List.filter_eq_self]
  intro entry hentry
  rw [bne_iff_ne]
  rintro rfl
  exact h (List.mem_map_of_mem hentry)

theorem length_keys (c : Cache) : c.keys.length = c.entries.length :=
  List.length_map _

theorem length_others_of_mem (hc : c.keys.Nodup) (h : offset ∈ c.keys) :
    (c.others offset).length + 1 = c.entries.length := by
  have hothers : (c.others offset).length = (c.keys.erase offset).length := by
    rw [hc.erase_eq_filter, ← keys_others, List.length_map]
  rw [hothers, List.length_erase_add_one h, length_keys]

theorem length_others_le (c : Cache) (offset : Int) :
    (c.others offset).length ≤ c.entries.length :=
  List.length_filter_le _ _

/-- At most one entry belongs to an offset. -/
theorem length_le_length_others (hc : c.keys.Nodup) (offset : Int) :
    c.entries.length ≤ (c.others offset).length + 1 := by
  by_cases h : offset ∈ c.keys
  · exact (length_others_of_mem hc h).ge
  · rw [others_of_not_mem h]
    exact Nat.le_succ _

/-! ### Two caches -/

/-- The smaller and the larger one of two caches that were asked the same. `room` is the capacity of
the smaller one. -/
structure Under (room : Nat) (small large : Cache) : Prop where
  entries : small.entries.Sublist large.entries
  full_or_same : small.entries.length = room ∨ small.entries = large.entries
  hits_le : small.hits ≤ large.hits
  lookups_eq : small.hits + small.misses = large.hits + large.misses

namespace Under

variable {n m : Nat} {es fs : List Exchange}

theorem others (h : Under n small large) (offset : Int) :
    (small.others offset).Sublist (large.others offset) :=
  h.entries.filter _

theorem keys (h : Under n small large) : small.keys.Sublist large.keys :=
  h.entries.map Prod.fst

/-- What the smaller cache finds, the larger one finds too. -/
theorem find? (h : Under n small large) (hl : large.keys.Nodup)
    (hf : small.find? offset = some layout) : large.find? offset = some layout :=
  find?_of_mem hl (h.entries.subset (mem_entries_of_find? hf))

/-- A lookup that is answered by both. -/
theorem find (h : Under n small large) (hs : small.keys.Nodup)
    (hfs : small.find? offset = some layout) (hfl : large.find? offset = some layout) :
    Under n (small.get offset).2 (large.get offset).2 := by
  have hlength := length_others_of_mem hs (mem_keys_of_find? hfs)
  simp only [get, hfs, hfl]
  refine ⟨(h.others offset).cons_cons _, ?_, Nat.succ_le_succ h.hits_le, ?_⟩
  · refine h.full_or_same.imp (fun hfull => hlength.trans hfull) fun hsame => ?_
    simp only [Cache.others, hsame]
  · have hlookups := h.lookups_eq
    dsimp only
    omega

/-- A lookup that only the larger cache can answer. It is a touch there, of an offset that the
smaller one does not hold. -/
theorem find_large (h : Under n small large) (hfs : small.find? offset = none)
    (hfl : large.find? offset = some layout) :
    Under n (small.get offset).2 (large.get offset).2 := by
  have habsent : small.others offset = small.entries :=
    others_of_not_mem (find?_eq_none_iff.1 hfs)
  simp only [get, hfs, hfl]
  refine ⟨?_, ?_, Nat.le_succ_of_le h.hits_le, ?_⟩
  · exact (habsent ▸ h.others offset).cons _
  · refine h.full_or_same.imp_right fun hsame => ?_
    rw [Cache.find?, hsame, ← Cache.find?, hfl] at hfs
    cases hfs
  · have hlookups := h.lookups_eq
    dsimp only
    omega

theorem miss (h : Under n small large) (hfs : small.find? offset = none)
    (hfl : large.find? offset = none) :
    Under n (small.get offset).2 (large.get offset).2 := by
  simp only [get, hfs, hfl]
  refine ⟨h.entries, h.full_or_same, h.hits_le, ?_⟩
  have hlookups := h.lookups_eq
  dsimp only
  omega

/-- After a layout was put, the entries of the smaller cache are still among those of the larger
one. -/
theorem entries_put (h : Under n small large) (hs : small.Reflects n es) (hl : large.Reflects m fs)
    (hnm : n ≤ m) (offset : Int) (layout : Layout) :
    (small.put offset layout).entries.Sublist (large.put offset layout).entries := by
  simp only [put, hs.capacity_eq, hl.capacity_eq, Int.toNat_natCast]
  refine take_sublist_take ((h.others offset).cons_cons _) ?_
  have hlarge : large.entries.length ≤ m := large.length_keys ▸ hl.length_keys_le
  have hothers := length_others_le large offset
  rcases h.full_or_same with hfull | hsame
  · -- The smaller cache drops as many entries as it grows by, and the larger one no more.
    simp only [List.length_cons]
    by_cases ho : offset ∈ small.keys
    · have hsmall := length_others_of_mem hs.nodup_keys ho
      have hmem := length_others_of_mem hl.nodup_keys (h.keys.subset ho)
      omega
    · rw [others_of_not_mem ho]
      omega
  · simp only [Cache.others, hsame, List.length_cons]
    omega

theorem put (h : Under n small large) (hs : small.Reflects n es) (hl : large.Reflects m fs)
    (hnm : n ≤ m) (offset : Int) (layout : Layout) :
    Under n (small.put offset layout) (large.put offset layout) := by
  refine ⟨h.entries_put hs hl hnm offset layout, ?_, h.hits_le, h.lookups_eq⟩
  simp only [Cache.put, hs.capacity_eq, hl.capacity_eq, Int.toNat_natCast, List.length_take,
    List.length_cons]
  have hlength := length_le_length_others hs.nodup_keys offset
  rcases h.full_or_same with hfull | hsame
  · left
    omega
  · -- Both put the layout in front of the same entries, and one may have too many of them.
    have hothers : small.others offset = large.others offset := by simp only [Cache.others, hsame]
    rw [hothers]
    by_cases hroom : (large.others offset).length + 1 ≤ n
    · right
      rw [List.take_of_length_le (by simpa using hroom),
        List.take_of_length_le (by simpa using hroom.trans hnm)]
    · left
      omega

/-- One more request. -/
theorem serve (h : Under n small large) (hs : small.Reflects n es) (hl : large.Reflects m fs)
    (hnm : n ≤ m) (request : Request) :
    Under n (small.serve request).2 (large.serve request).2 := by
  cases request with
  | get offset =>
    cases hfs : small.find? offset with
    | some layout => exact h.find hs.nodup_keys hfs (h.find? hl.nodup_keys hfs)
    | none =>
      cases hfl : large.find? offset with
      | some layout => exact h.find_large hfs hfl
      | none => exact h.miss hfs hfl
  | put offset layout => exact h.put hs hl hnm offset layout
  | contains offset => exact h
  | clear => exact ⟨.refl _, .inr rfl, Nat.le_refl _, rfl⟩

end Under

/-- Two caches that have been asked the same, from the beginning. -/
theorem under_serveAll {n m : Nat} (hnm : n ≤ m) (requests : List Request) :
    Under n (serveAll { capacity := n } requests).1 (serveAll { capacity := m } requests).1 := by
  induction requests using List.reverseRecOn with
  | nil => exact ⟨.refl _, .inr rfl, Nat.le_refl _, rfl⟩
  | append_singleton requests request ih =>
    rw [serveAll_snoc, serveAll_snoc]
    exact ih.serve (reflects_serveAll n requests) (reflects_serveAll m requests) hnm request

/-- A larger cache never does worse. After any requests, whatever the smaller one of two caches
holds is held by the larger one with the same layout, and what the smaller one holds stands in the
larger one in the same order of recency. The larger one has found at least as much since it was last
cleared, and missed at most as much. -/
theorem entries_sublist_serveAll {n m : Nat} (hnm : n ≤ m) (requests : List Request) :
    let small := (serveAll { capacity := n } requests).1
    let large := (serveAll { capacity := m } requests).1
    small.entries.Sublist large.entries ∧
      large.keys.Nodup ∧
      (∀ offset layout, small.find? offset = some layout →
        large.find? offset = some layout) ∧
      small.hits ≤ large.hits ∧
      large.misses ≤ small.misses := by
  intro small large
  have h : Under n small large := under_serveAll hnm requests
  have hl : large.keys.Nodup := (reflects_serveAll m requests).nodup_keys
  refine ⟨h.entries, hl, fun offset layout => h.find? hl, h.hits_le, ?_⟩
  have hlookups := h.lookups_eq
  have hhits := h.hits_le
  omega

/-- Requests by which a cache for two and a cache for three layouts go apart: only the larger one
still holds the first layout when it is looked up. -/
def partingRequests : List Request :=
  [.put 1 ⟨4, 4⟩, .put 2 ⟨8, 8⟩, .put 3 ⟨1, 1⟩, .get 1, .put 4 ⟨2, 2⟩, .get 3, .get 2]

/-- The smaller cache has kept less and found less, and what it holds is held by the larger one. -/
theorem entries_sublist_parting :
    let small := (serveAll { capacity := (2 : Nat) } partingRequests).1
    let large := (serveAll { capacity := (3 : Nat) } partingRequests).1
    small.entries = [(3, ⟨1, 1⟩), (4, ⟨2, 2⟩)] ∧
      large.entries = [(3, ⟨1, 1⟩), (4, ⟨2, 2⟩), (1, ⟨4, 4⟩)] ∧
      small.entries.Sublist large.entries ∧
      (∀ offset layout, small.find? offset = some layout → large.find? offset = some layout) ∧
      small.hits = 1 ∧ large.hits = 2 ∧ large.misses ≤ small.misses := by
  obtain ⟨hentries, -, hfind, -, hmisses⟩ :=
    entries_sublist_serveAll (show 2 ≤ 3 by decide) partingRequests
  exact ⟨by decide, by decide, hentries, hfind, by decide, by decide, hmisses⟩

end PaddingAudit.Cache
