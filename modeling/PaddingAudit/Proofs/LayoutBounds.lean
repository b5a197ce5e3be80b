import PaddingAudit.Proofs.RecordAlignment

/-!
# Bounds on layouts

In a program that states no negative number, sizes are never below zero and alignments never below
one, although chains of references may be cut off or lead nowhere. If the program moreover asks for
no alignment of its own, no alignment is above the cap of the platform. Both are true of what a
resolver returns because they are true of all that it keeps.
-/

namespace PaddingAudit.Resolver

open Debug PaddingAudit.Action

variable {r : Resolver} {s : Site} {e : Entry} {l : Layout} {q : Query} {limited : Bool}
  {capacity : Int} {sc : Scene Cache}

/-- The entries of a program: its types, and what they contain. -/
def entries (r : Resolver) : List Entry :=
  r.sites.flatMap fun s => s.toEntry :: s.children

theorem mem_entries_of_site (hs : s ∈ r.sites) : s.toEntry ∈ r.entries := by
  simp only [entries, List.mem_flatMap, List.mem_cons]
  exact ⟨s, hs, .inl rfl⟩

theorem mem_entries_of_child (hs : s ∈ r.sites) (he : e ∈ s.children) : e ∈ r.entries := by
  simp only [entries, List.mem_flatMap, List.mem_cons]
  exact ⟨s, hs, .inr he⟩

/-- No negative number is stated for a size or an alignment. -/
structure StatesNonneg (r : Resolver) : Prop where
  wordSize_nonneg : 0 ≤ r.platform.wordSize
  byteSize_nonneg : ∀ e ∈ r.entries, ∀ n, e.int? .byteSize = some n → 0 ≤ n
  alignment_nonneg : ∀ e ∈ r.entries, ∀ n, e.int? .alignment = some n → 0 ≤ n

theorem StatesNonneg.sane (h : r.StatesNonneg) : r.Sane where
  wordSize_nonneg := h.wordSize_nonneg
  byteSize_nonneg s hs := h.byteSize_nonneg s.toEntry (mem_entries_of_site hs)

theorem StatesNonneg.asksNonneg (h : r.StatesNonneg) : r.AsksNonneg :=
  fun s hs => h.alignment_nonneg s.toEntry (mem_entries_of_site hs)

/-- No entry asks for an alignment, and none is marked as a vector. -/
def Undemanding (r : Resolver) : Prop :=
  ∀ e ∈ r.entries, e.explicitAlignment? = none ∧ e.flag .vector = false

/-- The bounds of a layout. Above, an alignment is bounded only where the program leaves alignments
to the platform. -/
structure Bounded (r : Resolver) (l : Layout) : Prop where
  size_nonneg : 0 ≤ l.size
  one_le_alignment : 1 ≤ l.alignment
  alignment_le : r.Undemanding → l.alignment ≤ max 1 r.platform.maxAlign

theorem bounded_void : r.Bounded .void where
  size_nonneg := Int.le_refl 0
  one_le_alignment := Int.le_refl 1
  alignment_le _ := Int.le_max_left 1 _

theorem alignment_selfAligned_le (p : Platform) (size : Int) :
    (p.selfAligned size).alignment ≤ max 1 p.maxAlign := by
  simp only [Platform.selfAligned, effectiveAlignment]
  omega

/-- The alignments of members are bounded, and so the alignment of an aggregate is. -/
theorem alignment_plainAggregate_le {bound : Int} {ls : List Layout} (hone : 1 ≤ bound)
    (hasks : ∀ e ∈ s.children, e.explicitAlignment? = none) (h : ∀ l ∈ ls, l.alignment ≤ bound) :
    (r.plainAggregate s ls).alignment ≤ bound := by
  simp only [plainAggregate, ← List.map_uncurry_zip_eq_zipWith]
  apply foldl_max_le hone
  intro n hn
  obtain ⟨⟨part, l⟩, hmem, rfl⟩ := List.mem_map.1 hn
  obtain ⟨hpart, hl⟩ := List.of_mem_zip hmem
  have hle := h l hl
  simp only [Function.uncurry_apply_pair, hasks part.1 (mem_parts_iff.1 hpart).1, Option.getD_none]
  omega

theorem Undemanding.alignment_derived_le (h : r.Undemanding) (hs : s ∈ r.sites) {ls : List Layout}
    (hls : ∀ l ∈ ls, l.alignment ≤ max 1 r.platform.maxAlign) :
    (r.derived s ls).alignment ≤ max 1 r.platform.maxAlign := by
  have hvoid : Layout.void.alignment ≤ max 1 r.platform.maxAlign := Int.le_max_left 1 _
  have hhead := headD_of_forall (V := fun l => l.alignment ≤ max 1 r.platform.maxAlign) hvoid hls
  rcases r.derived_cases s ls with ⟨d, -, heq⟩ | heq | heq | heq <;> rw [heq]
  · exact alignment_selfAligned_le _ _
  · exact hhead
  · simp only [plainArray, (h s.toEntry (mem_entries_of_site hs)).2, Bool.false_eq_true, if_false]
    exact hhead
  · exact alignment_plainAggregate_le (Int.le_max_left 1 _)
      (fun e he => (h e (mem_entries_of_child hs he)).1) hls

theorem StatesNonneg.bounded_assemble (h : r.StatesNonneg) (hs : s ∈ r.sites) {ls : List Layout}
    (hls : ∀ l ∈ ls, r.Bounded l) : r.Bounded (r.assemble s ls) where
  size_nonneg := h.sane.assemble_nonneg hs fun l hl => (hls l hl).size_nonneg
  one_le_alignment := by
    show 1 ≤ s.explicitAlignment?.getD (r.derived s ls).alignment
    cases ha : s.explicitAlignment? with
    | some n => exact h.asksNonneg.one_le_explicit hs ha
    | none => exact one_le_alignment_derived fun l hl => (hls l hl).one_le_alignment
  alignment_le hr := by
    show s.explicitAlignment?.getD (r.derived s ls).alignment ≤ _
    rw [(hr s.toEntry (mem_entries_of_site hs)).1]
    exact hr.alignment_derived_le hs fun l hl => (hls l hl).alignment_le hr

/-! ### Queries -/

/-- A query about an entry of the program. -/
def Query.Inside (r : Resolver) : Query → Prop
  | .type none => True
  | .type (some s) => s ∈ r.sites
  | .member e => e ∈ r.entries

theorem Query.Inside.mem_sites (hq : q.Inside r) (hs : q.subject? r = some s) : s ∈ r.sites := by
  cases q with
  | type o =>
    obtain rfl : o = some s := hs
    exact hq
  | member e => exact List.mem_of_find?_eq_some (holds_of_target hs)

theorem Bounded.demand (hq : q.Inside r) (hl : r.Bounded l) : r.Bounded (q.demand l) := by
  cases q with
  | type o => exact hl
  | member e =>
    simp only [Query.demand]
    cases ha : e.explicitAlignment? with
    | none => exact hl
    | some n =>
      refine ⟨hl.size_nonneg, ?_, fun hr => ?_⟩
      · have hone := hl.one_le_alignment
        simp only
        omega
      · have hnone := (hr e hq).1
        rw [ha] at hnone
        cases hnone

/-- A query gives a layout in bounds if all that is kept is in bounds, and leaves it so. -/
theorem StatesNonneg.ends_run (h : r.StatesNonneg) (hq : q.Inside r)
    (hsc : Stores r.Bounded limited sc) :
    Ends (q.run r) sc (fun l sc' => Stores r.Bounded limited sc' ∧ r.Bounded l)
      (fun f sc' => Stores r.Bounded limited sc' ∧ f = .unwritable ∧ limited = true) := by
  have hrun : Ends (q.run r) sc
      (fun l sc' => ∃ m, l = q.demand m ∧ Stores r.Bounded limited sc' ∧ r.Bounded m)
      (fun f sc' => Stores r.Bounded limited sc' ∧ f = .unwritable ∧ limited = true) := by
    refine Query.ends_run ignoresAsides_stores ?_ hsc (fun _ sc hsc => ⟨hsc, bounded_void⟩) ?_
    · exact fun _ => ignoresAsides_stores.and fun _ _ _ hl => hl
    · intro s sc hs hsc
      exact ends_resolveWithin_every bounded_void (fun s hs ls => h.bounded_assemble hs) maxDepth []
        (hq.mem_sites hs) hsc
  refine hrun.imp ?_ fun _ _ hf => hf
  rintro _ sc' ⟨m, rfl, hsc', hm⟩
  exact ⟨hsc', hm.demand hq⟩

theorem StatesNonneg.stores_after (h : r.StatesNonneg) (hq : q.Inside r)
    (hsc : Stores r.Bounded limited sc) : Stores r.Bounded limited (q.after r sc) := by
  have hends := h.ends_run hq hsc
  unfold Query.after
  cases hx : q.run r sc with
  | ok l sc' => exact (hends.ok hx).1
  | error f sc' => exact (hends.error hx).1

/-- Every layout that a resolver keeps or returns is in bounds, whatever it is asked for and in
which order, in a program of any shape that states no negative number. A query gives a layout unless
the limit on decimal text is in force and stops it. -/
theorem bounded_afterAll (limited : Bool) (h : r.StatesNonneg) (hcap : 0 ≤ capacity)
    {qs : List Query} (hqs : ∀ q ∈ qs, q.Inside r) (hq : q.Inside r) :
    let sc := r.afterAll (start limited capacity) qs
    (∀ offset l, sc.state.find? offset = some l → r.Bounded l) ∧
      ((∃ l sc', q.run r sc = .ok l sc' ∧ r.Bounded l) ∨
        limited = true ∧ ∃ sc', q.run r sc = .error .unwritable sc') := by
  have hstart : Stores r.Bounded limited (start limited capacity) :=
    ⟨hcap, rfl, Cache.every_nil capacity 0 0⟩
  have hsc : Stores r.Bounded limited (r.afterAll (start limited capacity) qs) :=
    afterAll_induction hstart fun q hq sc hsc => h.stores_after (hqs q hq) hsc
  intro sc
  refine ⟨hsc.every, ?_⟩
  have hends := h.ends_run hq hsc
  cases hx : q.run r sc with
  | ok l sc' => exact .inl ⟨l, sc', rfl, (hends.ok hx).2⟩
  | error f sc' =>
    obtain ⟨-, rfl, hlimited⟩ := hends.error hx
    exact .inr ⟨hlimited, sc', rfl⟩

theorem statesNonneg_knot : knot.StatesNonneg where
  wordSize_nonneg := by decide
  byteSize_nonneg := (by decide +kernel : ∀ e ∈ knot.entries, ∀ n ∈ e.int? .byteSize, 0 ≤ n)
  alignment_nonneg := (by decide +kernel : ∀ e ∈ knot.entries, ∀ n ∈ e.int? .alignment, 0 ≤ n)

theorem undemanding_knot : knot.Undemanding := by
  unfold Undemanding
  decide +kernel

/-- Two structures that contain each other stay in bounds when one of them is cut off, and so does
a member of the other that is asked for next, with a cache for a single layout. -/
theorem bounded_knot :
    let sc := knot.afterAll (start false 1) [.type (some knotHead)]
    (∀ offset l, sc.state.find? offset = some l → knot.Bounded l) ∧
      ∃ l sc', Query.run knot (.member (memberOf 2)) sc = .ok l sc' ∧
        0 ≤ l.size ∧ 1 ≤ l.alignment ∧ l.alignment ≤ 8 := by
  have hhead : ∀ q ∈ [Query.type (some knotHead)], q.Inside knot := by
    rw [List.forall_mem_singleton]
    exact List.mem_cons_self
  have hcap : (0 : Int) ≤ 1 := by decide
  have hmember : (Query.member (memberOf 2)).Inside knot :=
    mem_entries_of_child (s := knotHead) List.mem_cons_self List.mem_cons_self
  obtain ⟨hkept, ⟨l, sc', hrun, hl⟩ | ⟨hlimited, -⟩⟩ :=
    bounded_afterAll false statesNonneg_knot hcap hhead hmember
  · exact ⟨hkept, l, sc', hrun, hl.size_nonneg, hl.one_le_alignment,
      hl.alignment_le undemanding_knot⟩
  · cases hlimited

end PaddingAudit.Resolver
