import PaddingAudit.Proofs.Query

/-!
# What a resolution explores

A resolution goes through the types below a type, one chain after the other, and stops at those in
the cache. `explore` is this search without layouts: it gives the offsets that are known at the end,
and nothing if a chain was cut off. If a search is not cut off, neither is one that starts with more
types known, as long as with a type all that it depends on is known.
-/

namespace PaddingAudit.Resolver

open Debug PaddingAudit.Action

variable {r : Resolver} {D : Site → Prop} {s : Site} {room known known' : List Int}
  {sc sc' sc'' : Scene Cache}

/-- With a type of `D` all that it depends on is known. -/
def Grounded (r : Resolver) (D : Site → Prop) (K : List Int) : Prop :=
  ∀ t, D t → t.offset ∈ K → ∀ u ∈ r.followed t, u.offset ∈ K

/-- A scene comes after another one, and its cache has kept what it held. -/
structure Grows (room : List Int) (sc sc' : Scene Cache) : Prop extends Continues sc sc' where
  roomy : sc'.state.Roomy room
  held : ∀ offset l, sc.state.find? offset = some l → sc'.state.find? offset = some l

namespace Grows

theorem refl (h : sc.state.Roomy room) : Grows room sc sc :=
  ⟨.refl sc, h, fun _ _ => id⟩

theorem trans (h : Grows room sc sc') (h' : Grows room sc' sc'') : Grows room sc sc'' :=
  ⟨h.toContinues.trans h'.toContinues, h'.roomy, fun o l hl => h'.held o l (h.held o l hl)⟩

theorem note (h : Grows room sc sc') (es : List Event) : Grows room sc (sc'.note es) :=
  ⟨h.toContinues.note es, h.roomy, h.held⟩

theorem asked (h : sc.state.Roomy room) (offset : Int) : Grows room sc (asked sc offset) :=
  ⟨continues_asked sc offset, h.get offset, fun o _ hl => (Cache.find?_get _ _ o).trans hl⟩

/-- A layout is stored for a type that was not known. -/
theorem put {offset : Int} (h : Grows room sc sc') (ho : offset ∈ room)
    (hf : sc.state.find? offset = none) (l : Layout) :
    Grows room sc { sc' with state := sc'.state.put offset l } where
  toContinues := h.toContinues.put offset l
  roomy := h.roomy.put ho l
  held o m hm := by
    have hne : o ≠ offset := by
      rintro rfl
      rw [hf] at hm
      cases hm
    rw [h.roomy.find?_put ho, if_neg hne]
    exact h.held o m hm

theorem keys (h : Grows room sc sc') : sc.state.keys ⊆ sc'.state.keys := by
  intro o ho
  obtain ⟨l, hl⟩ := Cache.mem_keys_iff.1 ho
  exact Cache.mem_keys_of_find? (h.held o l hl)

theorem capacity_nonneg (h : Grows room sc sc') : 0 ≤ sc'.state.capacity :=
  Int.le_trans (Int.natCast_nonneg _) h.roomy.length_le

end Grows

/-- With room for all that a type depends on, its resolution loses nothing. -/
theorem ends_resolveWithin_grows (depth : Nat) (pending : List Int)
    (hroom : ∀ t, r.Depends s t → t.offset ∈ room) (hsc : sc.state.Roomy room) :
    Ends (r.resolveWithin depth pending s) sc (fun _ => Grows room sc)
      (fun _ => Grows room sc) := by
  induction depth generalizing pending s sc with
  | zero =>
    refine ends_resolveWithin_zero (fun _ _ => .asked hsc _) ?_ ?_ <;>
      exact fun _ _ => (Grows.asked hsc _).note _
  | succ depth ih =>
    refine ends_resolveUnless (fun _ _ => .asked hsc _) (fun _ _ => (Grows.asked hsc _).note _)
      fun hf _ => ?_
    refine ends_compute (I := fun _ _ => Grows room sc) (fun _ _ _ es _ h => h.note es)
      (.asked hsc _) ?_ (fun _ _ h => h.capacity_nonneg) ?_
    · intro done t rest hfollowed ls sc' h
      have ht : t ∈ r.followed s := by simp [hfollowed]
      exact (ih _ (fun u hu => hroom u (.step ht hu)) h.roomy).imp (fun _ _ => h.trans)
        (fun _ _ => h.trans)
    · intro ls sc' h
      have hstored := h.put (hroom s .refl) hf (r.assemble s ls)
      dsimp only
      split
      · exact hstored.note _
      · exact hstored

/-- A scene in which the types `ts` are known, and with each type all that it depends on, as long as
no chain was cut off. -/
structure Grounds (r : Resolver) (room : List Int) (D : Site → Prop) (s : Site) (sc : Scene Cache)
    (ts : List Site) (sc' : Scene Cache) : Prop extends Grows room sc sc' where
  grounded : Uncut D sc' → r.Grounded D sc.state.keys → r.Grounded D sc'.state.keys
  known : Uncut D sc' → r.Grounded D sc.state.keys → D s → ∀ t ∈ ts, t.offset ∈ sc'.state.keys

namespace Grounds

variable {ts us : List Site} {t : Site}

theorem mono (h : r.Grounds room D s sc ts sc') (hus : us ⊆ ts) : r.Grounds room D s sc us sc' :=
  ⟨h.toGrows, h.grounded, fun hu hg hs t ht => h.known hu hg hs t (hus ht)⟩

theorem append (h : r.Grounds room D s sc ts sc') (ht : D s → D t)
    (h' : r.Grounds room D t sc' us sc'') : r.Grounds room D s sc (ts ++ us) sc'' where
  toGrows := h.toGrows.trans h'.toGrows
  grounded hu hg := h'.grounded hu (h.grounded (h'.uncut hu) hg)
  known hu hg hs u hmem := by
    have hu' := h'.uncut hu
    rcases List.mem_append.1 hmem with hmem | hmem
    · exact h'.keys (h.known hu' hg hs u hmem)
    · exact h'.known hu (h.grounded hu' hg) (ht hs) u hmem

theorem note (h : r.Grounds room D s sc ts sc') (es : List Event) :
    r.Grounds room D s sc ts (sc'.note es) :=
  ⟨h.toGrows.note es, fun hu => h.grounded (uncut_note.1 hu).1,
    fun hu => h.known (uncut_note.1 hu).1⟩

theorem asked (hroom : sc.state.Roomy room) (offset : Int) :
    r.Grounds room D s sc [] (asked sc offset) where
  toGrows := .asked hroom offset
  grounded _ hg t ht hm u hu := Cache.mem_keys_get.2 (hg t ht (Cache.mem_keys_get.1 hm) u hu)
  known _ _ _ := by simp

theorem of_hit {l : Layout} (hroom : sc.state.Roomy room)
    (hf : sc.state.find? s.offset = some l) :
    r.Grounds room D s sc [s] (Resolver.asked sc s.offset) where
  toGrows := .asked hroom s.offset
  grounded := (asked (s := s) hroom s.offset).grounded
  known _ _ _ t ht := by
    rw [List.mem_singleton.1 ht]
    exact Cache.mem_keys_get.2 (Cache.mem_keys_of_find? hf)

theorem of_cut {e : Event} (hroom : sc.state.Roomy room) (he : e.cutAt? = some s.offset) :
    r.Grounds room D s sc [s] ((Resolver.asked sc s.offset).note [e]) where
  toGrows := (Grows.asked hroom s.offset).note [e]
  grounded := ((asked (s := s) hroom s.offset).note [e]).grounded
  known hu _ hs := absurd he ((uncut_note.1 hu).2 s hs e (by simp))

/-- A type is stored when all that it follows is known. -/
theorem put (hD : r.Closed D) (hs : r.Holds s) (ho : s.offset ∈ room)
    (hf : sc.state.find? s.offset = none) (h : r.Grounds room D s sc (r.followed s) sc')
    (l : Layout) :
    r.Grounds room D s sc [s] { sc' with state := sc'.state.put s.offset l } where
  toGrows := h.toGrows.put ho hf l
  grounded hu hg t ht hm u hfollowed := by
    refine (h.roomy.mem_keys_put ho).2 (.inr ?_)
    rcases (h.roomy.mem_keys_put ho).1 hm with heq | hm
    · obtain rfl := (hD.holds t ht).eq hs heq
      exact h.known hu hg ht u hfollowed
    · exact h.grounded hu hg t ht hm u hfollowed
  known _ _ _ t ht := by
    rw [List.mem_singleton.1 ht]
    exact (h.roomy.mem_keys_put ho).2 (.inl rfl)

end Grounds

/-- After a resolution in a cache with room the type is known, and with each type all that it
depends on, as long as no chain was cut off. -/
theorem ends_resolveWithin_grounds (hD : r.Closed D) (depth : Nat) (pending : List Int)
    (hs : r.Holds s) (hroom : ∀ t, r.Depends s t → t.offset ∈ room)
    (hsc : sc.state.Roomy room) :
    Ends (r.resolveWithin depth pending s) sc (fun _ => r.Grounds room D s sc [s])
      (fun _ => r.Grounds room D s sc []) := by
  induction depth generalizing pending s sc with
  | zero =>
    exact ends_resolveWithin_zero (fun l => Grounds.of_hit hsc) (fun _ _ => .of_cut hsc rfl)
      (fun _ _ => .of_cut hsc rfl)
  | succ depth ih =>
    refine ends_resolveUnless (fun l => Grounds.of_hit hsc) (fun _ _ => .of_cut hsc rfl)
      fun hf _ => ?_
    refine ends_compute (I := fun done _ => r.Grounds room D s sc done)
      (fun _ _ _ es _ h => h.note es) (.asked hsc s.offset) ?_ (fun _ _ h => h.capacity_nonneg) ?_
    · intro done t rest hfollowed ls sc' h
      have ht : t ∈ r.followed s := by simp [hfollowed]
      have hDt : D s → D t := fun hs => hD.followed s hs t ht
      refine (ih _ (holds_of_mem_followed ht) (fun u hu => hroom u (.step ht hu)) h.roomy).imp
        (fun l sc'' h' => h.append hDt h') (fun e sc'' h' => ?_)
      exact (h.append hDt h').mono (List.nil_subset _)
    · intro ls sc' h
      have hstored := h.put hD hs (hroom s .refl) hf (r.assemble s ls)
      dsimp only
      split
      · exact hstored.note _
      · exact hstored.mono (List.nil_subset _)

/-! ### Runs and searches -/

/-- The types of `D` in the cache are those that are known. -/
def Knows (D : Site → Prop) (sc : Scene Cache) (known : List Int) : Prop :=
  ∀ t, D t → (t.offset ∈ sc.state.keys ↔ t.offset ∈ known)

/-- A run from one scene to another did what a search found: it knows the same types, and has cut
off a chain at a type of `D` exactly if the search was cut off. -/
structure Follows (room : List Int) (D : Site → Prop) (sc : Scene Cache)
    (found : Option (List Int)) (sc' : Scene Cache) : Prop extends Grows room sc sc' where
  knows : ∀ known, found = some known → Knows D sc' known
  stays : found.isSome → Uncut D sc → Uncut D sc'
  cut : found = none → ¬ Uncut D sc'

namespace Follows

variable {found : Option (List Int)}

theorem note (h : Follows room D sc found sc') {es : List Event}
    (hes : ∀ e ∈ es, e.cutAt? = none) : Follows room D sc found (sc'.note es) where
  toGrows := h.toGrows.note es
  knows := h.knows
  stays hf hu := uncut_note.2 ⟨h.stays hf hu, fun _ _ e he => by simp [hes e he]⟩
  cut hf hu := h.cut hf (uncut_note.1 hu).1

theorem asked (hroom : sc.state.Roomy room) (hknown : Knows D sc known) (offset : Int) :
    Follows room D sc (some known) (asked sc offset) where
  toGrows := .asked hroom offset
  knows k hk t ht := by
    rw [← Option.some.inj hk]
    exact Cache.mem_keys_get.trans (hknown t ht)
  stays _ hu := hu
  cut hf := by cases hf

theorem of_cut {e : Event} (hroom : sc.state.Roomy room) (hs : D s)
    (he : e.cutAt? = some s.offset) :
    Follows room D sc none ((Resolver.asked sc s.offset).note [e]) where
  toGrows := (Grows.asked hroom s.offset).note [e]
  knows _ hf := by cases hf
  stays hf := by simp at hf
  cut _ hu := (uncut_note.1 hu).2 s hs e (by simp) he

theorem trans (h : Follows room D sc (some known) sc') (h' : Follows room D sc' found sc'') :
    Follows room D sc found sc'' where
  toGrows := h.toGrows.trans h'.toGrows
  knows := h'.knows
  stays hf hu := h'.stays hf (h.stays rfl hu)
  cut := h'.cut

theorem put (ho : s.offset ∈ room) (hf : sc.state.find? s.offset = none)
    (h : Follows room D sc found sc') (l : Layout) :
    Follows room D sc (found.map (s.offset :: ·))
      { sc' with state := sc'.state.put s.offset l } where
  toGrows := h.toGrows.put ho hf l
  knows k hk t ht := by
    obtain ⟨known, hfound, rfl⟩ := Option.map_eq_some_iff.1 hk
    rw [h.roomy.mem_keys_put ho, List.mem_cons, h.knows known hfound t ht]
  stays hf := h.stays (by simpa using hf)
  cut hf := h.cut (by simpa using hf)

end Follows

end PaddingAudit.Resolver
