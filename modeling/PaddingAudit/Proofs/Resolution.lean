import PaddingAudit.Proofs.Derivation

/-!
# What resolution gives

A resolution cuts off a chain of references that comes back to a pending type or goes too deep, and
says so in the journal. The rule of this module is for programs of any kind: as long as the journal
tells of no cut at a type of interest, layouts come out as the plain definition has them. Where
chains are shallow nothing is ever cut off.
-/

namespace PaddingAudit

open Debug PaddingAudit.Action

namespace Event

/-- The offset of the type at which a chain of references was cut off. -/
def cutAt? : Event → Option Int
  | .circularReference offset | .depthReached _ offset => some offset
  | _ => none

theorem cutAt?_of_isAside {e : Event} (h : e.isAside) : e.cutAt? = none := by
  cases e <;> simp_all [isAside, cutAt?]

end Event

namespace Resolver

variable {r : Resolver} {D : Site → Prop} {V W : Site → Layout → Prop} {b : Bool} {s : Site}
  {sc sc' sc'' : Scene Cache} {l : Layout} {pending : List Int}

/-- The journal tells of no cut at a type of `D`. -/
def Uncut (D : Site → Prop) (sc : Scene Cache) : Prop :=
  ∀ t, D t → ∀ e ∈ sc.events, e.cutAt? ≠ some t.offset

theorem uncut_note {es : List Event} :
    Uncut D (sc.note es) ↔ Uncut D sc ∧ ∀ t, D t → ∀ e ∈ es, e.cutAt? ≠ some t.offset := by
  unfold Uncut
  simp only [Scene.events_note, List.mem_append, or_imp, forall_and]

theorem ignoresAsides_uncut : IgnoresAsides (Uncut D) := by
  intro sc es hes h
  refine uncut_note.2 ⟨h, fun t _ e he => ?_⟩
  simp [Event.cutAt?_of_isAside (hes e he)]

/-- One scene comes after another: the journal grew, and the cache and the limit have kept their
bounds. -/
structure Continues (sc sc' : Scene Cache) : Prop where
  capacity_eq : sc'.state.capacity = sc.state.capacity
  limited_eq : sc'.limited = sc.limited
  events_prefix : sc.events <+: sc'.events

namespace Continues

theorem refl (sc : Scene Cache) : Continues sc sc :=
  ⟨rfl, rfl, List.prefix_rfl⟩

theorem trans (h : Continues sc sc') (h' : Continues sc' sc'') : Continues sc sc'' :=
  ⟨h'.capacity_eq.trans h.capacity_eq, h'.limited_eq.trans h.limited_eq,
    h.events_prefix.trans h'.events_prefix⟩

theorem uncut (h : Continues sc sc') (hu : Uncut D sc') : Uncut D sc :=
  fun t ht e he => hu t ht e (h.events_prefix.subset he)

theorem note (h : Continues sc sc') (es : List Event) : Continues sc (sc'.note es) :=
  ⟨h.capacity_eq, h.limited_eq, by simpa using h.events_prefix.trans (List.prefix_append _ es)⟩

theorem put (h : Continues sc sc') (offset : Int) (l : Layout) :
    Continues sc { sc' with state := sc'.state.put offset l } :=
  ⟨h.capacity_eq, h.limited_eq, h.events_prefix⟩

end Continues

theorem continues_asked (sc : Scene Cache) (offset : Int) : Continues sc (asked sc offset) :=
  ⟨Cache.capacity_get _ _, rfl, List.prefix_rfl⟩

/-! ### What is kept -/

/-- Types that stay among themselves when references are followed. -/
structure Closed (r : Resolver) (D : Site → Prop) : Prop where
  holds : ∀ s, D s → r.Holds s
  followed : ∀ s, D s → ∀ t ∈ r.followed s, D t

theorem closed_holds (r : Resolver) : r.Closed r.Holds :=
  ⟨fun _ => id, fun _ _ _ => holds_of_mem_followed⟩

theorem closed_depends {d : Site} (hd : r.Holds d) : r.Closed (r.Depends d) :=
  ⟨fun _ hs => hs.holds hd, fun _ hs _ ht => hs.tail ht⟩

/-- Every layout in the cache is as `V` wants it, if it is the layout of a type of `D`. -/
def Kept (D : Site → Prop) (V : Site → Layout → Prop) (sc : Scene Cache) : Prop :=
  sc.state.Every fun offset l => ∀ t, D t → t.offset = offset → V t l

theorem kept_asked (h : Kept D V sc) (offset : Int) : Kept D V (asked sc offset) :=
  h.get offset

theorem Kept.imp (h : Kept D V sc) (hVW : ∀ t l, V t l → W t l) : Kept D W sc :=
  Cache.Every.imp h fun _ l hl t ht ho => hVW t l (hl t ht ho)

theorem Kept.put (h : Kept D V sc) (hs : r.Holds s) (hD : r.Closed D) (hl : D s → V s l) :
    Kept D V { sc with state := sc.state.put s.offset l } := by
  refine Cache.Every.put h fun t ht ho => ?_
  obtain rfl := (hD.holds t ht).eq hs ho
  exact hl ht

/-- What may be said of layouts: `W` holds of what is assembled from layouts of which `V` holds, and
`V` holds of it as soon as it is told. `b` says whether the limit on decimal text is in force. -/
structure Assembles (r : Resolver) (b : Bool) (D : Site → Prop) (V W : Site → Layout → Prop) :
    Prop where
  assemble : ∀ s ls, D s → List.Forall₂ V (r.followed s) ls → W s (r.assemble s ls)
  told : ∀ s l, W s l → (l.isWritable || !b) → V s l
  untold : ∀ s l, V s l → W s l

/-- The scene and the layout that the resolution of a type ends with. -/
structure Finds (D : Site → Prop) (V : Site → Layout → Prop) (s : Site) (sc : Scene Cache)
    (l : Layout) (sc' : Scene Cache) : Prop where
  continues : Continues sc sc'
  kept : Uncut D sc' → Kept D V sc → Kept D V sc'
  layout : Uncut D sc' → Kept D V sc → D s → V s l

/-- The scene that the resolution of a type fails in: the layout of a type below could not be
told. -/
structure Stops (r : Resolver) (D : Site → Prop) (V W : Site → Layout → Prop) (s : Site)
    (sc : Scene Cache) (e : Failure) (sc' : Scene Cache) : Prop where
  unwritable : e = .unwritable
  limited : sc.limited = true
  continues : Continues sc sc'
  kept : Uncut D sc' → Kept D V sc → Kept D W sc'
  cause : Uncut D sc' → Kept D V sc → D s → ∃ t l, r.Depends s t ∧ W t l ∧ l.isWritable = false

theorem finds_of_hit (hf : sc.state.find? s.offset = some l) :
    Finds D V s sc l (asked sc s.offset) where
  continues := continues_asked sc s.offset
  kept _ hk := kept_asked hk s.offset
  layout _ hk hs := hk s.offset l hf s hs rfl

theorem finds_of_cut {e : Event} (he : e.cutAt? = some s.offset) :
    Finds D V s sc .void ((asked sc s.offset).note [e]) where
  continues := (continues_asked sc s.offset).note [e]
  kept _ hk := kept_asked hk s.offset
  layout hu _ hs := absurd he ((uncut_note.1 hu).2 s hs e (by simp))

/-- What holds while the followed types of `s` are visited. -/
structure Gathers (D : Site → Prop) (V : Site → Layout → Prop) (s : Site) (sc : Scene Cache)
    (done : List Site) (ls : List Layout) (sc' : Scene Cache) : Prop where
  continues : Continues sc sc'
  kept : Uncut D sc' → Kept D V sc → Kept D V sc'
  layouts : Uncut D sc' → Kept D V sc → D s → List.Forall₂ V done ls

theorem ignoresAsides_gathers (done : List Site) (ls : List Layout) :
    IgnoresAsides (Gathers D V s sc done ls) := by
  intro sc' es hes h
  have hu : Uncut D (sc'.note es) → Uncut D sc' := fun hu => (uncut_note.1 hu).1
  exact ⟨h.continues.note es, fun h' => h.kept (hu h'), fun h' => h.layouts (hu h')⟩

/-- One more type is visited. -/
theorem Gathers.snoc {done : List Site} {ls : List Layout} {t : Site} (hD : r.Closed D)
    (ht : t ∈ r.followed s) (h : Gathers D V s sc done ls sc') (hl : Finds D V t sc' l sc'') :
    Gathers D V s sc (done ++ [t]) (ls ++ [l]) sc'' where
  continues := h.continues.trans hl.continues
  kept hu hk := hl.kept hu (h.kept (hl.continues.uncut hu) hk)
  layouts hu hk hs := by
    have hu' := hl.continues.uncut hu
    have hlt := hl.layout hu (h.kept hu' hk) (hD.followed s hs t ht)
    exact List.rel_append (h.layouts hu' hk hs) (.cons hlt .nil)

/-- A type below could not be told. -/
theorem Gathers.stops {done : List Site} {ls : List Layout} {t : Site} {e : Failure}
    (hD : r.Closed D) (ht : t ∈ r.followed s) (h : Gathers D V s sc done ls sc')
    (he : Stops r D V W t sc' e sc'') : Stops r D V W s sc e sc'' where
  unwritable := he.unwritable
  limited := h.continues.limited_eq ▸ he.limited
  continues := h.continues.trans he.continues
  kept hu hk := he.kept hu (h.kept (he.continues.uncut hu) hk)
  cause hu hk hs := by
    have hk' := h.kept (he.continues.uncut hu) hk
    obtain ⟨u, l, hu', hl⟩ := he.cause hu hk' (hD.followed s hs t ht)
    exact ⟨u, l, .step ht hu', hl⟩

/-- All followed types are visited: the layout is assembled, kept, and told if it can be. -/
theorem Gathers.finish {ls : List Layout} (hD : r.Closed D) (hV : r.Assembles sc.limited D V W)
    (hs : r.Holds s) (h : Gathers D V s sc (r.followed s) ls sc') :
    let l := r.assemble s ls
    let stored := { sc' with state := sc'.state.put s.offset l }
    if l.isWritable || !sc'.limited then Finds D V s sc l (stored.note [.resolved s.toEntry l])
    else Stops r D V W s sc .unwritable stored := by
  intro l stored
  have hW : Uncut D sc' → Kept D V sc → D s → W s l := fun hu hk hs =>
    hV.assemble s ls hs (h.layouts hu hk hs)
  split
  · -- The layout is told: `V` holds of it, and so it may stay in the cache.
    rename_i htold
    rw [h.continues.limited_eq] at htold
    have hu : Uncut D (stored.note [.resolved s.toEntry l]) → Uncut D sc' := fun hu =>
      (uncut_note.1 hu).1
    have hl : Uncut D sc' → Kept D V sc → D s → V s l := fun hu hk hs =>
      hV.told s l (hW hu hk hs) htold
    refine ⟨(h.continues.put s.offset l).note _, ?_, fun hu' => hl (hu hu')⟩
    exact fun hu' hk => (h.kept (hu hu') hk).put hs hD (hl (hu hu') hk)
  · -- It is in the cache all the same, and `W` is all that is known of it.
    rename_i htold
    have hlimited : l.isWritable = false ∧ sc'.limited = true := by simpa using htold
    refine ⟨rfl, h.continues.limited_eq ▸ hlimited.2, h.continues.put s.offset l, ?_, ?_⟩
    · exact fun hu hk => ((h.kept hu hk).imp hV.untold).put hs hD (hW hu hk)
    · exact fun hu hk hs => ⟨s, l, .refl, hW hu hk hs, hlimited.1⟩

/-- What the resolution of a type gives, as long as the journal tells of no cut. -/
theorem ends_resolveWithin (hD : r.Closed D) (hV : r.Assembles b D V W) (depth : Nat)
    (pending : List Int) (hs : r.Holds s) (hc : 0 ≤ sc.state.capacity) (hb : sc.limited = b) :
    Ends (r.resolveWithin depth pending s) sc (Finds D V s sc) (Stops r D V W s sc) := by
  induction depth generalizing pending s sc with
  | zero =>
    -- Nothing is derived here, and a cut makes `Uncut` false.
    exact ends_resolveWithin_zero (fun l => finds_of_hit) (fun _ _ => finds_of_cut rfl)
      (fun _ _ => finds_of_cut rfl)
  | succ depth ih =>
    refine ends_resolveUnless (fun l => finds_of_hit) (fun _ _ => finds_of_cut rfl) fun _ _ => ?_
    have hasked := continues_asked sc s.offset
    refine ends_compute (I := Gathers D V s sc) ignoresAsides_gathers ?_ ?_ ?_ ?_
    · exact ⟨hasked, fun _ hk => kept_asked hk s.offset, fun _ _ _ => .nil⟩
    · intro done t rest hfollowed ls sc' h
      have ht : t ∈ r.followed s := by simp [hfollowed]
      refine (ih _ (holds_of_mem_followed ht) ?_ ?_).imp (fun l sc'' => h.snoc hD ht)
        fun e sc'' => h.stops hD ht
      · rwa [h.continues.capacity_eq]
      · rwa [h.continues.limited_eq]
    · intro ls sc' h
      rwa [h.continues.capacity_eq]
    · intro ls sc' h
      exact h.finish hD (hb ▸ hV) hs

/-- Where chains come to an end, none is cut off: they are not too deep, and what is pending is
above the type that is resolved. -/
theorem ends_resolveWithin_uncut (depth : Nat) (pending : List Int) (hw : r.Within depth s)
    (hs : r.Holds s)
    (hpending : ∀ p, r.Holds p → p.offset ∈ pending →
      Relation.TransGen (fun s t => t ∈ r.followed s) p s)
    (hc : 0 ≤ sc.state.capacity) (hu : Uncut r.Holds sc) :
    Ends (r.resolveWithin depth pending s) sc
      (fun _ sc' => 0 ≤ sc'.state.capacity ∧ Uncut r.Holds sc')
      (fun _ sc' => 0 ≤ sc'.state.capacity ∧ Uncut r.Holds sc') := by
  induction depth generalizing pending s sc with
  | zero => exact hw.elim
  | succ depth ih =>
    have hcap := continues_asked sc s.offset |>.capacity_eq
    refine ends_resolveUnless (fun l _ => ⟨hcap ▸ hc, hu⟩) ?_ fun _ _ => ?_
    · -- A pending type that comes again would be below itself.
      intro _ hmem
      exact absurd (hpending s hs hmem) hw.not_transGen
    · refine ends_compute (I := fun _ _ sc' => 0 ≤ sc'.state.capacity ∧ Uncut r.Holds sc')
        (fun _ _ => IgnoresAsides.and (fun _ _ _ h => h) ignoresAsides_uncut) ⟨hcap ▸ hc, hu⟩ ?_
        (fun _ _ h => h.1) ?_
      · intro done t rest hfollowed ls sc' ⟨hc', hu'⟩
        have ht : t ∈ r.followed s := by simp [hfollowed]
        refine ih _ (hw t ht) (holds_of_mem_followed ht) (fun p hp hmem => ?_) hc' hu'
        rcases List.mem_cons.1 hmem with ho | hmem
        · obtain rfl := hp.eq hs ho
          exact .single ht
        · exact (hpending p hp hmem).tail ht
      · intro ls sc' ⟨hc', hu'⟩
        dsimp only
        split
        · refine ⟨hc', uncut_note.2 ⟨hu', fun t _ e he => ?_⟩⟩
          simp [List.mem_singleton.1 he, Event.cutAt?]
        · exact ⟨hc', hu'⟩

end Resolver

end PaddingAudit
