import PaddingAudit.Proofs.Tabulation

/-!
# Answers and what was asked before

What a resolver keeps under a chain that was cut off is not the plain layout, and is given out as if
it were. So the answer for a type can depend on what was asked before. There are two ways in which
it does not, in a cache with room for all types that are met: the type was asked for before any that
it depends on was met, or the journal tells of no cut at a type that it depends on.
-/

namespace PaddingAudit.Resolver

open Debug PaddingAudit.Action

variable {r : Resolver} {D : Site → Prop} {d s : Site} {limited : Bool} {capacity : Int}
  {room : List Int} {sc : Scene Cache} {q : Query} {qs : List Query} {l : Layout} {table : Table}

/-- A scene that some queries lead to in a cache with room: as long as no chain was cut off at a
type of `D`, only plain layouts are kept for these types, and with each of them all that it depends
on. -/
structure Lived (r : Resolver) (room : List Int) (limited : Bool) (D : Site → Prop)
    (sc : Scene Cache) : Prop where
  roomy : sc.state.Roomy room
  limited_eq : sc.limited = limited
  kept : Uncut D sc → Kept D r.Plain sc
  grounded : Uncut D sc → r.Grounded D sc.state.keys

theorem ignoresAsides_lived : IgnoresAsides (r.Lived room limited D) := by
  intro sc es _ h
  have hu : Uncut D (sc.note es) → Uncut D sc := fun hu => (uncut_note.1 hu).1
  exact ⟨h.roomy, h.limited_eq, fun h' => h.kept (hu h'), fun h' => h.grounded (hu h')⟩

theorem Lived.capacity_nonneg (h : r.Lived room limited D sc) : 0 ≤ sc.state.capacity :=
  Int.le_trans (Int.natCast_nonneg _) h.roomy.length_le

theorem Lived.after {q : Query} (hD : r.Closed D) (hq : q.About r)
    (hroom : ∀ s t, q.subject? r = some s → r.Depends s t → t.offset ∈ room)
    (h : r.Lived room limited D sc) : r.Lived room limited D (q.after r sc) := by
  refine Query.after_induction ignoresAsides_lived h fun s sc hs h => ?_
  have hplain := ends_resolveWithin hD (assembles_plain r limited D) maxDepth [] (hq s hs)
    h.capacity_nonneg h.limited_eq
  have hgrounds := ends_resolveWithin_grounds hD maxDepth [] (hq s hs) (hroom s · hs) h.roomy
  refine (hplain.and hgrounds).imp ?_ ?_
  · rintro l sc' ⟨hl, hg⟩
    exact ⟨hg.roomy, hl.continues.limited_eq.trans h.limited_eq,
      fun hu => hl.kept hu (h.kept (hg.uncut hu)),
      fun hu => hg.grounded hu (h.grounded (hg.uncut hu))⟩
  · rintro e sc' ⟨he, hg⟩
    exact ⟨hg.roomy, he.continues.limited_eq.trans h.limited_eq,
      fun hu => he.kept hu (h.kept (hg.uncut hu)),
      fun hu => hg.grounded hu (h.grounded (hg.uncut hu))⟩

/-- A query for a type that shares nothing that it depends on with `d`. -/
def Query.Apart (r : Resolver) (d : Site) (q : Query) : Prop :=
  ∀ s t, q.subject? r = some s → r.Depends s t → ¬ r.Depends d t

/-- A scene in which nothing is known of what a type depends on. -/
structure Untouched (r : Resolver) (room : List Int) (limited : Bool) (d : Site)
    (sc : Scene Cache) : Prop where
  roomy : sc.state.Roomy room
  limited_eq : sc.limited = limited
  shows : Shows (r.Depends d) sc fun _ => none

/-- A scene in which the layout of a type is known. -/
structure Answered (room : List Int) (d : Site) (l : Layout) (sc : Scene Cache) : Prop where
  roomy : sc.state.Roomy room
  find?_eq : sc.state.find? d.offset = some l

theorem ignoresAsides_untouched : IgnoresAsides (r.Untouched room limited d) :=
  fun _ _ _ h => ⟨h.roomy, h.limited_eq, h.shows⟩

theorem ignoresAsides_answered : IgnoresAsides (Answered room d l) :=
  fun _ _ _ h => ⟨h.roomy, h.find?_eq⟩

theorem Untouched.put (hd : r.Holds d) (h : r.Untouched room limited d sc) (hs : r.Holds s)
    (ho : s.offset ∈ room) (hnot : ¬ r.Depends d s) (l : Layout) :
    r.Untouched room limited d { sc with state := sc.state.put s.offset l } := by
  refine ⟨h.roomy.put ho l, h.limited_eq, fun t ht => ?_⟩
  have hne : t.offset ≠ s.offset := by
    intro heq
    obtain rfl := (ht.holds hd).eq hs heq
    exact hnot ht
  rw [h.roomy.find?_put ho, if_neg hne]
  exact h.shows t ht

theorem Untouched.after (hd : r.Holds d) (hq : q.About r)
    (hroom : ∀ s t, q.subject? r = some s → r.Depends s t → t.offset ∈ room)
    (hapart : q.Apart r d) (h : r.Untouched room limited d sc) :
    r.Untouched room limited d (q.after r sc) := by
  refine Query.after_induction ignoresAsides_untouched h fun s sc hs h => ?_
  refine ends_resolveWithin_frame (fun _ _ h => ⟨h.roomy, h.limited_eq, h.shows⟩) ?_ ?_ maxDepth []
    (fun t ht sc l h => h.put hd (ht.holds (hq s hs)) (hroom s t hs ht) (hapart s t hs ht) l) h
  · intro sc offset h
    exact ⟨h.roomy.get offset, h.limited_eq, fun t ht =>
      (Cache.find?_get _ _ _).trans (h.shows t ht)⟩
  · exact fun sc h => Int.le_trans (Int.natCast_nonneg _) h.roomy.length_le

/-- A type that nothing is known of gets the layout that it is filled with. -/
theorem Untouched.ends_resolve (hd : r.Holds d) (hroom : ∀ t, r.Depends d t → t.offset ∈ room)
    (hfill : (r.fill limited maxDepth [] d).run (fun _ => none) = some (l, table))
    (h : r.Untouched room limited d sc) :
    Ends (r.resolveWithin maxDepth [] d) sc (fun m sc' => m = l ∧ Answered room d l sc')
      (fun _ _ => False) := by
  refine (ends_resolveWithin_fill (closed_depends hd) maxDepth [] .refl hroom h.roomy h.limited_eq
    h.shows).imp ?_ ?_
  · intro m sc' hm
    obtain ⟨table', hrun, hshows⟩ := hm.shows
    rw [hfill] at hrun
    cases hrun
    exact ⟨rfl, hm.roomy, (hshows d .refl).trans (fill_known hfill)⟩
  · intro e sc' hnone
    rw [hfill] at hnone
    cases hnone

/-- What is known stays known. -/
theorem Answered.after (hroom : ∀ s t, q.subject? r = some s → r.Depends s t → t.offset ∈ room)
    (h : Answered room d l sc) : Answered room d l (q.after r sc) :=
  Query.after_induction ignoresAsides_answered h fun s _ hs h =>
    (ends_resolveWithin_grows maxDepth [] (hroom s · hs) h.roomy).imp
      (fun _ _ hg => ⟨hg.roomy, hg.held _ _ h.find?_eq⟩)
      (fun _ _ hg => ⟨hg.roomy, hg.held _ _ h.find?_eq⟩)

/-- A structure with a member of the other structure and a word. -/
def knotHead : Site where
  tag := some .structureType
  offset := 1
  attributes := [(.byteSize, { value := .int 16 })]
  children := [memberOf 2, memberOf 3]

/-- A structure with a member of the first structure. -/
def knotTail : Site where
  tag := some .structureType
  offset := 2
  attributes := [(.byteSize, { value := .int 16 })]
  children := [memberOf 1]

def wordType : Site where
  tag := some .baseType
  offset := 3
  attributes := [(.byteSize, { value := .int 8 })]

/-- Two structures that contain each other, and a word. -/
def knot : Resolver where
  platform := { wordSize := 8, maxAlign := 8 }
  sites := [knotHead, knotTail, wordType]

end PaddingAudit.Resolver
