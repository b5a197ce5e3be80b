import Mathlib.Data.List.Forall2
import PaddingAudit.Proofs.Query

/-!
# Two resolvers in lockstep

Two resolvers with the same types are asked for the same layouts. If the layouts that they work out
stay related, they go through the same steps: they follow the same references, find the same offsets
in their caches and fail for the same cause. `Resolver.Lockstep` lists what has to be shown of
single layouts for that, and is kept by every resolution and every query.

A derivation is a round of visits to the followed types. What comes of a type is determined by its
round, up to asides, and two rounds of related visits are compared visit by visit. So no rule here
looks at the kinds of types.
-/

namespace PaddingAudit

open Debug PaddingAudit.Action

variable {ε σ α β γ δ : Type}

namespace Action

/-- Two outcomes that belong together: both are good, with `Q`, or both are failures for one cause,
with `E`. -/
def Paired (Q : α → Scene σ → β → Scene σ → Prop) (E : ε → Scene σ → Scene σ → Prop) :
    EStateM.Result ε (Scene σ) α → EStateM.Result ε (Scene σ) β → Prop
  | .ok a s, .ok b t => Q a s b t
  | .error e s, .error e' t => e = e' ∧ E e s t
  | _, _ => False

/-- How two actions come out in two scenes. -/
def InStep (x : Action ε σ α) (y : Action ε σ β) (s t : Scene σ)
    (Q : α → Scene σ → β → Scene σ → Prop) (E : ε → Scene σ → Scene σ → Prop) : Prop :=
  Paired Q E (x s) (y t)

variable {x : Action ε σ α} {y : Action ε σ β} {f : α → Action ε σ γ} {g : β → Action ε σ δ}
  {s t : Scene σ} {Q Q' : α → Scene σ → β → Scene σ → Prop} {E : ε → Scene σ → Scene σ → Prop}
  {R : γ → Scene σ → δ → Scene σ → Prop}

theorem InStep.cases (h : InStep x y s t Q E) :
    (∃ a s' b t', x s = .ok a s' ∧ y t = .ok b t' ∧ Q a s' b t') ∨
      ∃ e s' t', x s = .error e s' ∧ y t = .error e t' ∧ E e s' t' := by
  unfold InStep at h
  cases hx : x s with
  | ok a s' =>
    cases hy : y t with
    | ok b t' =>
      rw [hx, hy] at h
      exact .inl ⟨a, s', b, t', rfl, rfl, h⟩
    | error e t' => simp [hx, hy, Paired] at h
  | error e s' =>
    cases hy : y t with
    | ok b t' => simp [hx, hy, Paired] at h
    | error e' t' =>
      rw [hx, hy] at h
      obtain ⟨rfl, hE⟩ := h
      exact .inr ⟨e, s', t', rfl, rfl, hE⟩

theorem InStep.of_ok {a : α} {b : β} {s' t' : Scene σ} (hx : x s = .ok a s') (hy : y t = .ok b t')
    (h : Q a s' b t') : InStep x y s t Q E := by
  rw [InStep, hx, hy]
  exact h

theorem InStep.of_error {e : ε} {s' t' : Scene σ} (hx : x s = .error e s') (hy : y t = .error e t')
    (h : E e s' t') : InStep x y s t Q E := by
  rw [InStep, hx, hy]
  exact ⟨rfl, h⟩

theorem InStep.imp (h : InStep x y s t Q E) (hQ : ∀ a s' b t', Q a s' b t' → Q' a s' b t') :
    InStep x y s t Q' E := by
  rcases h.cases with ⟨a, s', b, t', hx, hy, hab⟩ | ⟨e, s', t', hx, hy, hE⟩
  · exact .of_ok hx hy (hQ a s' b t' hab)
  · exact .of_error hx hy hE

theorem InStep.bind (h : InStep x y s t Q E)
    (hfg : ∀ a s' b t', Q a s' b t' → InStep (f a) (g b) s' t' R E) :
    InStep (x >>= f) (y >>= g) s t R E := by
  rcases h.cases with ⟨a, s', b, t', hx, hy, hab⟩ | ⟨e, s', t', hx, hy, hE⟩
  · rw [InStep, bind_ok hx, bind_ok hy]
    exact hfg a s' b t' hab
  · exact .of_error (bind_error hx f) (bind_error hy g) hE

/-- After two readings both actions go on with more asides in their journals. -/
theorem Quiet.inStep_bind {a : α} {b : β} (hx : Quiet x a) (hy : Quiet y b)
    (h : ∀ es fs : List Event, InStep (f a) (g b) (s.note es) (t.note fs) R E) :
    InStep (x >>= f) (y >>= g) s t R E := by
  obtain ⟨es, -, hxs⟩ := hx
  obtain ⟨fs, -, hyt⟩ := hy
  rw [InStep, bind_ok (hxs s), bind_ok (hyt t)]
  exact h es fs

end Action

namespace Cache

variable {P P' : Layout → Layout → Prop} {c c' : Cache}

/-- Two caches with the same offsets in the same order and the same counts, and with layouts that
are related by `P`. -/
structure Matches (P : Layout → Layout → Prop) (c c' : Cache) : Prop where
  capacity_eq : c.capacity = c'.capacity
  hits_eq : c.hits = c'.hits
  misses_eq : c.misses = c'.misses
  entries : List.Forall₂ (fun a b => a.1 = b.1 ∧ P a.2 b.2) c.entries c'.entries

namespace Matches

theorem imp (h : c.Matches P c') (hP : ∀ l l', P l l' → P' l l') : c.Matches P' c' :=
  { h with entries := h.entries.imp fun _ _ hab => ⟨hab.1, hP _ _ hab.2⟩ }

theorem keys_eq (h : c.Matches P c') : c.keys = c'.keys := by
  rw [keys, keys, ← List.forall₂_eq_eq_eq, List.forall₂_map_left_iff, List.forall₂_map_right_iff]
  exact h.entries.imp fun _ _ => And.left

theorem find? (h : c.Matches P c') (offset : Int) :
    Option.Rel P (c.find? offset) (c'.find? offset) := by
  have hentries := h.entries
  unfold Cache.find?
  generalize c.entries = entries at hentries
  generalize c'.entries = entries' at hentries
  induction hentries with
  | nil => exact .none
  | @cons a b _ _ hab _ ih =>
    obtain ⟨key, l⟩ := a
    obtain ⟨key', l'⟩ := b
    obtain ⟨rfl, hl⟩ := hab
    rw [List.lookup_cons, List.lookup_cons]
    by_cases hkey : offset == key
    · simp only [hkey]
      exact .some hl
    · simp only [hkey]
      exact ih

theorem others (h : c.Matches P c') (offset : Int) :
    List.Forall₂ (fun a b => a.1 = b.1 ∧ P a.2 b.2) (c.others offset) (c'.others offset) := by
  refine List.rel_filter (fun a b hab => ?_) h.entries
  simp only [hab.1]

theorem get (h : c.Matches P c') (offset : Int) : (c.get offset).2.Matches P (c'.get offset).2 := by
  have hfind := h.find? offset
  unfold Cache.get
  cases hc : c.find? offset with
  | none =>
    rw [hc] at hfind
    cases hc' : c'.find? offset with
    | none => exact { h with misses_eq := congrArg (· + 1) h.misses_eq }
    | some l' => simp [hc'] at hfind
  | some l =>
    rw [hc] at hfind
    cases hc' : c'.find? offset with
    | none => simp [hc'] at hfind
    | some l' =>
      rw [hc'] at hfind
      obtain ⟨hl⟩ := hfind
      exact { h with
        hits_eq := congrArg (· + 1) h.hits_eq
        entries := .cons ⟨rfl, hl⟩ (h.others offset) }

theorem put {l l' : Layout} (h : c.Matches P c') (hl : P l l') (offset : Int) :
    (c.put offset l).Matches P (c'.put offset l') := by
  refine { h with entries := ?_ }
  simp only [Cache.put, h.capacity_eq]
  exact List.forall₂_take _ (.cons ⟨rfl, hl⟩ (h.others offset))

end Matches

end Cache

namespace Resolver

/-! ### Rounds of visits -/

variable {r r' : Resolver} {visit visit' : Site → Action Failure Cache Layout} {s t : Site}
  {ts rest : List Site} {l : Layout} {ls : List Layout} {sc sc' sc₁ sc₂ : Scene Cache} {e : Failure}

/-- The outcome of some visits, together with the layouts of those before. -/
def extend (ls : List Layout) :
    EStateM.Result Failure (Scene Cache) (List Layout) →
      EStateM.Result Failure (Scene Cache) (List Layout)
  | .ok ms sc => .ok (ls ++ ms) sc
  | .error e sc => .error e sc

/-- A round of visits to some types, one after the other and with asides in between, comes out as
given. -/
def Round (visit : Site → Action Failure Cache Layout) :
    List Site → Scene Cache → EStateM.Result Failure (Scene Cache) (List Layout) → Prop
  | [], sc, out => ∃ es, out = .ok [] (sc.note es)
  | t :: ts, sc, out =>
    ∃ es, match visit t (sc.note es) with
      | .ok l sc₁ => ∃ later, Round visit ts sc₁ later ∧ out = extend [l] later
      | .error e sc₁ => out = .error e sc₁

namespace Round

variable {out out' : EStateM.Result Failure (Scene Cache) (List Layout)}

theorem of_note {es : List Event} (h : Round visit ts (sc.note es) out) :
    Round visit ts sc out := by
  cases ts with
  | nil =>
    obtain ⟨fs, rfl⟩ := h
    exact ⟨es ++ fs, by rw [Scene.note_note]⟩
  | cons t ts =>
    obtain ⟨fs, h⟩ := h
    rw [Scene.note_note] at h
    exact ⟨es ++ fs, h⟩

/-- A round that ended well may go on. -/
theorem append (h : Round visit ts sc (.ok ls sc₁)) (h' : Round visit rest sc₁ out) :
    Round visit (ts ++ rest) sc (extend ls out) := by
  induction ts generalizing sc ls with
  | nil =>
    obtain ⟨es, heq⟩ := h
    cases heq
    cases out <;> exact h'.of_note
  | cons t ts ih =>
    obtain ⟨es, h⟩ := h
    refine ⟨es, ?_⟩
    cases ht : visit t (sc.note es) with
    | error e sc₂ =>
      simp only [ht] at h
      cases h
    | ok l sc₂ =>
      simp only [ht] at h
      obtain ⟨later, hlater, heq⟩ := h
      cases later with
      | error e sc₃ => cases heq
      | ok ms sc₃ =>
        cases heq
        exact ⟨extend ms out, ih hlater, by cases out <;> rfl⟩

theorem note (h : Round visit ts sc (.ok ls sc₁)) (es : List Event) :
    Round visit ts sc (.ok ls (sc₁.note es)) := by
  have hlast : Round visit [] sc₁ (.ok [] (sc₁.note es)) := ⟨es, rfl⟩
  simpa [extend] using h.append hlast

theorem snoc (h : Round visit ts sc (.ok ls sc₁)) (ht : visit t sc₁ = .ok l sc₂) :
    Round visit (ts ++ [t]) sc (.ok (ls ++ [l]) sc₂) := by
  have hlast : Round visit [t] sc₁ (.ok [l] sc₂) := by
    refine ⟨[], ?_⟩
    rw [Scene.note_nil, ht]
    exact ⟨.ok [] sc₂, ⟨[], by rw [Scene.note_nil]⟩, rfl⟩
  exact h.append hlast

theorem stop (h : Round visit ts sc (.ok ls sc₁)) (ht : visit t sc₁ = .error e sc₂) :
    Round visit (ts ++ t :: rest) sc (.error e sc₂) := by
  have hlast : Round visit (t :: rest) sc₁ (.error e sc₂) := by
    refine ⟨[], ?_⟩
    rw [Scene.note_nil, ht]
  exact h.append hlast

/-- Rounds of visits that are in step come out together. -/
theorem paired {P : Layout → Layout → Prop} {R : Scene Cache → Scene Cache → Prop}
    {E : Failure → Scene Cache → Scene Cache → Prop}
    (hnote : ∀ sc sc' es fs, R sc sc' → R (sc.note es) (sc'.note fs))
    (hvisit : ∀ t sc sc', R sc sc' →
      InStep (visit t) (visit' t) sc sc' (fun l sc l' sc' => P l l' ∧ R sc sc') E)
    (h : Round visit ts sc out) (h' : Round visit' ts sc' out') (hs : R sc sc') :
    Paired (fun ls sc ls' sc' => List.Forall₂ P ls ls' ∧ R sc sc') E out out' := by
  induction ts generalizing sc sc' out out' with
  | nil =>
    obtain ⟨es, rfl⟩ := h
    obtain ⟨fs, rfl⟩ := h'
    exact ⟨.nil, hnote _ _ es fs hs⟩
  | cons t ts ih =>
    obtain ⟨es, h⟩ := h
    obtain ⟨fs, h'⟩ := h'
    rcases (hvisit t _ _ (hnote _ _ es fs hs)).cases with
      ⟨l, sc₁, l', sc₁', ht, ht', hl, hs₁⟩ | ⟨e, sc₁, sc₁', ht, ht', hE⟩
    · simp only [ht] at h
      simp only [ht'] at h'
      obtain ⟨later, hlater, rfl⟩ := h
      obtain ⟨later', hlater', rfl⟩ := h'
      have hrest := ih hlater hlater' hs₁
      cases later with
      | ok ls sc₂ =>
        cases later' with
        | ok ls' sc₂' => exact ⟨.cons hl hrest.1, hrest.2⟩
        | error e' sc₂' => exact hrest.elim
      | error e sc₂ =>
        cases later' with
        | ok ls' sc₂' => exact hrest.elim
        | error e' sc₂' => exact hrest
    · simp only [ht] at h
      simp only [ht'] at h'
      subst h h'
      exact ⟨rfl, hE⟩

end Round

/-! ### Resolution -/

/-- A layout is kept and told. -/
def concluded (s : Site) (l : Layout) (sc : Scene Cache) :
    EStateM.Result Failure (Scene Cache) Layout :=
  let stored := { sc with state := sc.state.put s.offset l }
  if stored.state.overdrawn then .error .overdrawnCache stored
  else if l.isWritable || !sc.limited then .ok l (stored.note [.resolved s.toEntry l])
  else .error .unwritable stored

theorem keep_tell_apply (s : Site) (l : Layout) (sc : Scene Cache) :
    (keep s.offset l >>= fun _ => tell (.resolved s.toEntry l) >>= fun _ => pure l) sc =
      concluded s l sc := by
  have hkeep := keep_apply s.offset l sc
  have htell := tell_apply (.resolved s.toEntry l) { sc with state := sc.state.put s.offset l }
  by_cases hover : (sc.state.put s.offset l).overdrawn
  · rw [concluded, if_pos hover]
    exact bind_error (hkeep.trans (if_pos hover)) _
  · rw [concluded, if_neg hover, bind_ok (hkeep.trans (if_neg hover))]
    by_cases htold : l.isWritable || !sc.limited
    · rw [if_pos htold]
      exact bind_ok (htell.trans (if_pos htold)) _
    · rw [if_neg htold]
      exact bind_error (htell.trans (if_neg htold)) _

/-- What comes of a type after the round of its followed types. -/
def finished (r : Resolver) (s : Site) :
    EStateM.Result Failure (Scene Cache) (List Layout) → EStateM.Result Failure (Scene Cache) Layout
  | .ok ls sc => concluded s (r.assemble s ls) sc
  | .error e sc => .error e sc

/-- A layout is derived by a round of visits, and then concluded. -/
theorem compute_apply (r : Resolver) (visit : Site → Action Failure Cache Layout) (s : Site)
    (sc : Scene Cache) :
    ∃ out, Round visit (r.followed s) sc out ∧ r.compute visit s sc = r.finished s out := by
  have hasides : ∀ done ls, IgnoresAsides fun sc' => Round visit done sc (.ok ls sc') :=
    fun _ _ _ es _ h => h.note es
  have hnil : Round visit [] sc (.ok [] sc) := ⟨[], by rw [Scene.note_nil]⟩
  have hderive : Ends (r.derive visit s) sc
      (fun l sc' => ∃ ls, Round visit (r.followed s) sc (.ok ls sc') ∧ l = r.derived s ls)
      (fun e sc' => Round visit (r.followed s) sc (.error e sc')) := by
    refine ends_derive (I := fun done ls sc' => Round visit done sc (.ok ls sc')) hasides hnil ?_
    intro done t rest hfollowed ls sc₁ h
    cases ht : visit t sc₁ with
    | ok l sc₂ => exact Ends.of_ok ht (h.snoc ht)
    | error e sc₂ =>
      rw [Ends, ht]
      exact hfollowed ▸ h.stop ht
  unfold compute
  cases hx : r.derive visit s sc with
  | error e sc₁ => exact ⟨.error e sc₁, hderive.error hx, bind_error hx _⟩
  | ok l sc₁ =>
    obtain ⟨ls, h, rfl⟩ := hderive.ok hx
    obtain ⟨es, -, hread⟩ := s.quiet_readAlignment (ε := Failure) (σ := Cache)
    refine ⟨.ok ls (sc₁.note es), h.note es, ?_⟩
    rw [bind_ok hx, bind_ok (hread sc₁)]
    exact keep_tell_apply s (r.assemble s ls) (sc₁.note es)

theorem followed_congr (h : r'.sites = r.sites) (s : Site) : r'.followed s = r.followed s := by
  unfold followed parts
  rw [h]

variable {P : Layout → Layout → Prop} {R : Scene Cache → Scene Cache → Prop}
  {E : Failure → Scene Cache → Scene Cache → Prop}

/-- What keeps two resolvers in step. The scenes that they work in are related by `R`, and the
layouts that they find or give by `P`; where they fail, `E` is all that is known of the scenes. -/
structure Lockstep (r r' : Resolver) (P : Layout → Layout → Prop)
    (R : Scene Cache → Scene Cache → Prop) (E : Failure → Scene Cache → Scene Cache → Prop) :
    Prop where
  sites_eq : r'.sites = r.sites
  void : P .void .void
  note : ∀ sc sc' es fs, R sc sc' → R (sc.note es) (sc'.note fs)
  find? : ∀ sc sc' offset, R sc sc' →
    Option.Rel P (sc.state.find? offset) (sc'.state.find? offset)
  asked : ∀ sc sc' offset, R sc sc' → R (asked sc offset) (asked sc' offset)
  concluded : ∀ s ls ls' sc sc', List.Forall₂ P ls ls' → R sc sc' →
    Paired (fun l sc l' sc' => P l l' ∧ R sc sc') E (concluded s (r.assemble s ls) sc)
      (concluded s (r'.assemble s ls') sc')

namespace Lockstep

theorem compute (h : Lockstep r r' P R E)
    (hvisit : ∀ t sc sc', R sc sc' →
      InStep (visit t) (visit' t) sc sc' (fun l sc l' sc' => P l l' ∧ R sc sc') E)
    (hs : R sc sc') :
    InStep (r.compute visit s) (r'.compute visit' s) sc sc'
      (fun l sc l' sc' => P l l' ∧ R sc sc') E := by
  obtain ⟨out, hround, hout⟩ := compute_apply r visit s sc
  obtain ⟨out', hround', hout'⟩ := compute_apply r' visit' s sc'
  rw [followed_congr h.sites_eq] at hround'
  have hpaired := hround.paired h.note hvisit hround' hs
  rw [InStep, hout, hout']
  cases out with
  | ok ls sc₁ =>
    cases out' with
    | ok ls' sc₁' => exact h.concluded s ls ls' sc₁ sc₁' hpaired.1 hpaired.2
    | error e sc₁' => exact hpaired.elim
  | error e sc₁ =>
    cases out' with
    | ok ls' sc₁' => exact hpaired.elim
    | error e' sc₁' => exact hpaired

/-- A type is in both caches or in none of them. In the latter case it is pending for both or
computed by both. -/
theorem resolveUnless {pending : List Int} {compute compute' : Action Failure Cache Layout}
    (h : Lockstep r r' P R E) (hs : R sc sc')
    (hcompute : R (Resolver.asked sc s.offset) (Resolver.asked sc' s.offset) →
      InStep compute compute' (Resolver.asked sc s.offset) (Resolver.asked sc' s.offset)
        (fun l sc l' sc' => P l l' ∧ R sc sc') E) :
    InStep (resolveUnless pending s compute) (resolveUnless pending s compute') sc sc'
      (fun l sc l' sc' => P l l' ∧ R sc sc') E := by
  have hfind := h.find? sc sc' s.offset hs
  have hasked := h.asked sc sc' s.offset hs
  unfold InStep Resolver.resolveUnless
  rw [bind_ok (fromCache_apply s.offset sc), bind_ok (fromCache_apply s.offset sc')]
  generalize sc.state.find? s.offset = found at hfind
  generalize sc'.state.find? s.offset = found' at hfind
  cases hfind with
  | some hl => exact ⟨hl, hasked⟩
  | none =>
    dsimp only
    split
    · rw [bind_ok (log_apply _ _), bind_ok (log_apply _ _)]
      exact ⟨h.void, h.note _ _ _ _ hasked⟩
    · exact hcompute hasked

/-- Resolutions of one type stay in step. -/
theorem resolveWithin (h : Lockstep r r' P R E) (depth : Nat) (pending : List Int) (s : Site)
    (hs : R sc sc') :
    InStep (r.resolveWithin depth pending s) (r'.resolveWithin depth pending s) sc sc'
      (fun l sc l' sc' => P l l' ∧ R sc sc') E := by
  induction depth generalizing pending s sc sc' with
  | zero =>
    refine h.resolveUnless hs fun hasked => ?_
    rw [InStep, bind_ok (log_apply _ _), bind_ok (log_apply _ _)]
    exact ⟨h.void, h.note _ _ _ _ hasked⟩
  | succ depth ih =>
    refine h.resolveUnless hs fun hasked => ?_
    exact h.compute (fun t _ _ hs => ih _ t hs) hasked

theorem resolve (h : Lockstep r r' P R E) (o : Option Site) (hs : R sc sc') :
    InStep (r.resolve o) (r'.resolve o) sc sc' (fun l sc l' sc' => P l l' ∧ R sc sc') E := by
  cases o with
  | none => exact ⟨h.void, hs⟩
  | some s => exact h.resolveWithin maxDepth [] s hs

/-- Queries stay in step. -/
theorem run (h : Lockstep r r' P R E) (q : Query) (hs : R sc sc') :
    InStep (q.run r) (q.run r') sc sc'
      (fun l sc l' sc' => (∃ m m', P m m' ∧ l = q.demand m ∧ l' = q.demand m') ∧ R sc sc') E := by
  cases q with
  | type o => exact (h.resolve o hs).imp fun l _ l' _ hl => ⟨⟨l, l', hl.1, rfl, rfl⟩, hl.2⟩
  | member e =>
    simp only [Query.run, resolveMember, h.sites_eq]
    refine (e.quiet_followType r.sites).inStep_bind (e.quiet_followType r.sites) fun es fs => ?_
    refine (h.resolve _ (h.note _ _ es fs hs)).bind fun l sc₁ l' sc₁' hl => ?_
    refine e.quiet_readAlignment.inStep_bind e.quiet_readAlignment fun es fs => ?_
    have hnote := h.note _ _ es fs hl.2
    simp only [Query.demand]
    cases e.explicitAlignment? with
    | some explicit => exact ⟨⟨l, l', hl.1, rfl, rfl⟩, hnote⟩
    | none => exact ⟨⟨l, l', hl.1, rfl, rfl⟩, hnote⟩

end Lockstep

/-- What holds of two scenes however a query comes out, holds after it. -/
theorem Query.after_of_inStep {K : Scene Cache → Scene Cache → Prop}
    {Q : Layout → Scene Cache → Layout → Scene Cache → Prop} {q : Query}
    (h : InStep (q.run r) (q.run r') sc sc' Q E) (hQ : ∀ l sc l' sc', Q l sc l' sc' → K sc sc')
    (hE : ∀ e sc sc', E e sc sc' → K sc sc') : K (q.after r sc) (q.after r' sc') := by
  unfold Query.after
  rcases h.cases with ⟨l, sc₁, l', sc₁', hx, hy, hl⟩ | ⟨e, sc₁, sc₁', hx, hy, he⟩
  · rw [hx, hy]
    exact hQ l sc₁ l' sc₁' hl
  · rw [hx, hy]
    exact hE e sc₁ sc₁' he

end Resolver

end PaddingAudit
