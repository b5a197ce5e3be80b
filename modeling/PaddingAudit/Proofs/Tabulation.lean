import PaddingAudit.Proofs.Exploration

/-!
# Resolution on a table

With room in the cache, a resolution is a function of the layouts that are stored: neither the order
in which they were used nor the journal makes a difference. `fill` is this function. It cuts chains
off as the resolution does, so it is right for programs of any kind.
-/

namespace PaddingAudit.Resolver

open Debug PaddingAudit.Action

variable {r : Resolver} {D : Site → Prop} {s : Site} {limited : Bool} {room : List Int}
  {sc sc' : Scene Cache} {l : Layout}

/-- Layouts by the offset of their type. -/
abbrev Table := Int → Option Layout

variable {table table' : Table}

/-- The layout of a type that is resolved with a table in place of the cache. There is none if the
layout of a type below cannot be told. -/
def fill (r : Resolver) (limited : Bool) : (depth : Nat) → (pending : List Int) → Site →
    StateT Table Option Layout
  | 0, _, s => return ((← get) s.offset).getD .void
  | depth + 1, pending, s => do
    match (← get) s.offset with
    | some l => return l
    | none =>
      if s.offset ∈ pending then
        return .void
      else
        let ls ← (r.followed s).mapM (r.fill limited depth (s.offset :: pending))
        let l := r.assemble s ls
        if l.isWritable || !limited then
          modify fun table => Function.update table s.offset (some l)
          return l
        else
          failure

theorem fill_of_some {depth : Nat} {pending : List Int} (h : table s.offset = some l) :
    (r.fill limited depth pending s).run table = some (l, table) := by
  cases depth <;> simp [fill, h]

theorem fill_of_cut {depth : Nat} {pending : List Int} (h : table s.offset = none)
    (hcut : depth = 0 ∨ s.offset ∈ pending) :
    (r.fill limited depth pending s).run table = some (.void, table) := by
  cases depth with
  | zero => simp [fill, h]
  | succ depth => simp [fill, h, hcut.resolve_left (Nat.succ_ne_zero depth)]

theorem fill_succ {depth : Nat} {pending : List Int} (h : table s.offset = none)
    (hp : s.offset ∉ pending) :
    (r.fill limited (depth + 1) pending s).run table =
      (((r.followed s).mapM (r.fill limited depth (s.offset :: pending))).run table).bind fun p =>
        let l := r.assemble s p.1
        if l.isWritable || !limited then some (l, Function.update p.2 s.offset (some l))
        else none := by
  simp only [fill, if_neg hp, StateT.run_bind, StateT.run_get, pure_bind, h]
  refine Option.bind_congr fun p _ => ?_
  split <;> rfl

/-- A type that is asked for first is in the table once it has its layout. -/
theorem fill_known {depth : Nat}
    (h : (r.fill limited (depth + 1) [] s).run table = some (l, table')) :
    table' s.offset = some l := by
  cases hf : table s.offset with
  | some m =>
    rw [fill_of_some hf] at h
    cases h
    exact hf
  | none =>
    rw [fill_succ hf List.not_mem_nil, Option.bind_eq_some_iff] at h
    obtain ⟨p, -, hp⟩ := h
    dsimp only at hp
    split at hp
    · cases hp
      exact Function.update_self ..
    · cases hp

/-- The cache holds for the types of `D` what the table does. -/
def Shows (D : Site → Prop) (sc : Scene Cache) (table : Table) : Prop :=
  ∀ t, D t → sc.state.find? t.offset = table t.offset

/-- A run from one scene to another came to what was found with a table, and to a cache that holds
the same as the table at the end. -/
structure Fills {α : Type} (room : List Int) (D : Site → Prop) (sc : Scene Cache)
    (found : Option (α × Table)) (a : α) (sc' : Scene Cache) : Prop extends Grows room sc sc' where
  shows : ∃ table, found = some (a, table) ∧ Shows D sc' table

namespace Fills

variable {α : Type} {found : Option (α × Table)} {a : α}

theorem note (h : Fills room D sc found a sc') (es : List Event) :
    Fills room D sc found a (sc'.note es) :=
  ⟨h.toGrows.note es, h.shows⟩

theorem asked (hroom : sc.state.Roomy room) (hshows : Shows D sc table) (a : α) (offset : Int) :
    Fills room D sc (some (a, table)) a (asked sc offset) where
  toGrows := .asked hroom offset
  shows := ⟨table, rfl, fun t ht => (Cache.find?_get _ _ _).trans (hshows t ht)⟩

end Fills

namespace Shows

theorem put (h : Shows D sc table) (hroom : sc.state.Roomy room) (ho : s.offset ∈ room)
    (l : Layout) :
    Shows D { sc with state := sc.state.put s.offset l }
      (Function.update table s.offset (some l)) := by
  intro t ht
  rw [hroom.find?_put ho, Function.update_apply, h t ht]

theorem fills_of_hit {depth : Nat} {pending : List Int} (h : Shows D sc table) (hs : D s)
    (hroom : sc.state.Roomy room) (hf : sc.state.find? s.offset = some l) :
    Fills room D sc ((r.fill limited depth pending s).run table) l (asked sc s.offset) := by
  rw [fill_of_some ((h s hs).symm.trans hf)]
  exact .asked hroom h l s.offset

theorem fills_of_cut {depth : Nat} {pending : List Int} (h : Shows D sc table) (hs : D s)
    (hroom : sc.state.Roomy room) (hf : sc.state.find? s.offset = none)
    (hcut : depth = 0 ∨ s.offset ∈ pending) (es : List Event) :
    Fills room D sc ((r.fill limited depth pending s).run table) .void
      ((asked sc s.offset).note es) := by
  rw [fill_of_cut ((h s hs).symm.trans hf) hcut]
  exact (Fills.asked hroom h Layout.void s.offset).note es

end Shows

/-- A resolution comes to what its type is filled with. -/
theorem ends_resolveWithin_fill (hD : r.Closed D) (depth : Nat) (pending : List Int) (hs : D s)
    (hroom : ∀ t, r.Depends s t → t.offset ∈ room) (hsc : sc.state.Roomy room)
    (hlimited : sc.limited = limited) (hshows : Shows D sc table) :
    Ends (r.resolveWithin depth pending s) sc
      (Fills room D sc ((r.fill limited depth pending s).run table))
      (fun _ _ => (r.fill limited depth pending s).run table = none) := by
  induction depth generalizing pending s sc table with
  | zero =>
    refine ends_resolveWithin_zero (fun l => hshows.fills_of_hit hs hsc) ?_ ?_ <;>
      exact fun hf _ => hshows.fills_of_cut hs hsc hf (.inl rfl) _
  | succ depth ih =>
    refine ends_resolveUnless (fun l => hshows.fills_of_hit hs hsc)
      (fun hf hp => hshows.fills_of_cut hs hsc hf (.inr hp) _) fun hf hp => ?_
    rw [fill_succ ((hshows s hs).symm.trans hf) hp]
    -- The invariant: the run so far came to what the table is filled with for the types done.
    generalize hvisit : r.fill limited depth (s.offset :: pending) = visit
    refine ends_compute (I := fun done ls => Fills room D sc ((done.mapM visit).run table) ls)
      (fun _ _ _ es _ h => h.note es) (.asked hsc hshows [] s.offset) ?_
      (fun _ _ h => h.capacity_nonneg) ?_
    · intro done t rest hfollowed ls sc' h
      have ht : t ∈ r.followed s := by simp [hfollowed]
      obtain ⟨table', hdone, hshows'⟩ := h.shows
      have hnext := ih (s.offset :: pending) (hD.followed s hs t ht)
        (fun u hu => hroom u (.step ht hu)) h.roomy (h.limited_eq.trans hlimited) hshows'
      rw [hvisit] at hnext
      refine hnext.imp (fun l sc'' hl => ?_) fun e sc'' he => ?_
      · obtain ⟨table'', hl', hshows''⟩ := hl.shows
        refine ⟨h.toGrows.trans hl.toGrows, table'', ?_, hshows''⟩
        simp [hdone, hl']
      · simp [hfollowed, hdone, he]
    · intro ls sc' h
      obtain ⟨table', hdone, hshows'⟩ := h.shows
      have hstored := h.toGrows.put (hroom s .refl) hf (r.assemble s ls)
      have hlimited' : sc'.limited = limited := h.limited_eq.trans hlimited
      rw [hdone, Option.bind_some, ← hlimited']
      dsimp only
      split
      · exact ⟨hstored.note _, _, rfl, hshows'.put h.roomy (hroom s .refl) _⟩
      · rfl

end PaddingAudit.Resolver
