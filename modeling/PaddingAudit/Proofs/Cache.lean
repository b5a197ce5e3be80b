import Mathlib.Data.List.Perm.Subperm
import PaddingAudit.Cache
import PaddingAudit.Proofs.Entries

/-!
# What a cache holds

Looking up touches an offset and moves its entry, but no lookup can tell: what the cache holds for
each offset stays the same. Storing adds one entry and may drop others. So whatever is true of each
stored layout stays true, as long as it is true of the layouts that are put in. A cache with room
for all that is put in drops nothing.
-/

namespace PaddingAudit.Cache

variable {V : Int → Layout → Prop} {c : Cache}

theorem lookup_of_lookup_take {n : Nat} {offset : Int} {layout : Layout}
    {entries : List (Int × Layout)} (h : (entries.take n).lookup offset = some layout) :
    entries.lookup offset = some layout := by
  rw [← List.take_append_drop n entries, List.lookup_append, h]
  rfl

@[simp]
theorem fst_get (c : Cache) (offset : Int) : (c.get offset).1 = c.find? offset := by
  unfold get
  split <;> simp_all

/-- A lookup leaves what the cache holds. -/
@[simp]
theorem find?_get (c : Cache) (offset other : Int) :
    (c.get offset).2.find? other = c.find? other := by
  unfold get
  split
  · rename_i layout h
    refine (lookup_cons_filter_ne c.entries offset other layout).trans ?_
    split
    · rename_i ho
      rw [ho, h]
    · rfl
  · rfl

/-- What a cache holds after storing was just stored or was there before. -/
theorem find?_put {offset other : Int} {layout stored : Layout}
    (h : (c.put offset layout).find? other = some stored) :
    (other = offset ∧ stored = layout) ∨ c.find? other = some stored := by
  have h := lookup_of_lookup_take h
  rw [others, lookup_cons_filter_ne] at h
  split at h
  · rename_i ho
    exact .inl ⟨ho, (Option.some.inj h).symm⟩
  · exact .inr h

theorem overdrawn_put {offset : Int} {layout : Layout} (h : 0 ≤ c.capacity) :
    (c.put offset layout).overdrawn = false := by
  rw [overdrawn, capacity_put, decide_eq_false_iff_not]
  omega

/-- Every layout in a cache is as `V` wants it for its offset. -/
def Every (V : Int → Layout → Prop) (c : Cache) : Prop :=
  ∀ offset layout, c.find? offset = some layout → V offset layout

theorem Every.imp {W : Int → Layout → Prop} (h : c.Every V) (hVW : ∀ o l, V o l → W o l) :
    c.Every W :=
  fun o l hl => hVW o l (h o l hl)

theorem every_nil (capacity : Int) (hits misses : Nat) :
    Every V { capacity := capacity, hits := hits, misses := misses } := by
  intro offset layout h
  simp [find?] at h

theorem Every.get (h : c.Every V) (offset : Int) : (c.get offset).2.Every V := by
  intro other layout hl
  rw [find?_get] at hl
  exact h other layout hl

theorem Every.put {offset : Int} {layout : Layout} (h : c.Every V) (hl : V offset layout) :
    (c.put offset layout).Every V := by
  intro other stored hs
  rcases find?_put hs with ⟨rfl, rfl⟩ | hs
  · exact hl
  · exact h other stored hs

/-! ### Room -/

def keys (c : Cache) : List Int :=
  c.entries.map Prod.fst

theorem find?_eq_none_iff {offset : Int} : c.find? offset = none ↔ offset ∉ c.keys := by
  unfold keys find?
  induction c.entries with
  | nil => simp
  | cons entry entries ih => grind

theorem mem_keys_iff {offset : Int} : offset ∈ c.keys ↔ ∃ layout, c.find? offset = some layout := by
  rw [← Option.isSome_iff_exists, ← Option.ne_none_iff_isSome, Ne, find?_eq_none_iff, not_not]

theorem mem_keys_of_find? {offset : Int} {layout : Layout} (h : c.find? offset = some layout) :
    offset ∈ c.keys :=
  mem_keys_iff.2 ⟨layout, h⟩

theorem mem_keys_get {offset other : Int} : other ∈ (c.get offset).2.keys ↔ other ∈ c.keys := by
  rw [← not_iff_not, ← find?_eq_none_iff, ← find?_eq_none_iff, find?_get]

theorem keys_others (c : Cache) (offset : Int) :
    (c.others offset).map Prod.fst = c.keys.filter (· != offset) := by
  rw [keys, others, List.filter_map]
  rfl

/-- A cache that has room for some offsets, and entries for no others. -/
structure Roomy (room : List Int) (c : Cache) : Prop where
  nodup : c.keys.Nodup
  subset : c.keys ⊆ room
  length_le : (room.length : Int) ≤ c.capacity

theorem roomy_nil {room : List Int} {capacity : Int} (h : (room.length : Int) ≤ capacity) :
    Roomy room { capacity := capacity } :=
  ⟨.nil, List.nil_subset _, h⟩

namespace Roomy

variable {room : List Int} {offset : Int}

theorem nodup_cons (h : c.Roomy room) (offset : Int) :
    (offset :: (c.others offset).map Prod.fst).Nodup := by
  rw [keys_others, List.nodup_cons]
  exact ⟨by simp, h.nodup.filter _⟩

theorem cons_subset (h : c.Roomy room) (ho : offset ∈ room) :
    offset :: (c.others offset).map Prod.fst ⊆ room := by
  rw [keys_others]
  exact List.cons_subset.2 ⟨ho, fun _ hp => h.subset (List.mem_filter.1 hp).1⟩

theorem get (h : c.Roomy room) (offset : Int) : (c.get offset).2.Roomy room := by
  unfold Cache.get
  split
  · rename_i layout hf
    exact ⟨h.nodup_cons offset, h.cons_subset (h.subset (mem_keys_of_find? hf)), h.length_le⟩
  · exact ⟨h.nodup, h.subset, h.length_le⟩

/-- Where there is room nothing is dropped. -/
theorem entries_put (h : c.Roomy room) (ho : offset ∈ room) (layout : Layout) :
    (c.put offset layout).entries = (offset, layout) :: c.others offset := by
  have hlen := (List.subperm_of_subset (h.nodup_cons offset) (h.cons_subset ho)).length_le
  have hroom := h.length_le
  refine List.take_of_length_le ?_
  simp only [List.length_cons, List.length_map] at hlen ⊢
  omega

theorem keys_put (h : c.Roomy room) (ho : offset ∈ room) (layout : Layout) :
    (c.put offset layout).keys = offset :: (c.others offset).map Prod.fst := by
  rw [keys, h.entries_put ho, List.map_cons]

theorem find?_put (h : c.Roomy room) (ho : offset ∈ room) (layout : Layout) (other : Int) :
    (c.put offset layout).find? other =
      if other = offset then some layout else c.find? other := by
  rw [find?, h.entries_put ho]
  exact lookup_cons_filter_ne c.entries offset other layout

theorem put (h : c.Roomy room) (ho : offset ∈ room) (layout : Layout) :
    (c.put offset layout).Roomy room := by
  refine ⟨?_, ?_, h.length_le⟩ <;> rw [h.keys_put ho]
  · exact h.nodup_cons offset
  · exact h.cons_subset ho

theorem mem_keys_put (h : c.Roomy room) (ho : offset ∈ room) {layout : Layout} {other : Int} :
    other ∈ (c.put offset layout).keys ↔ other = offset ∨ other ∈ c.keys := by
  rw [h.keys_put ho, keys_others, List.mem_cons, List.mem_filter]
  by_cases hoo : other = offset <;> simp [hoo]

end Roomy

end PaddingAudit.Cache
