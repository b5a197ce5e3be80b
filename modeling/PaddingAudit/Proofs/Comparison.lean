import PaddingAudit.Proofs.Lockstep
import PaddingAudit.Proofs.Survey

/-!
# Runs side by side

`Action.Together` says how two actions come out that start in two scenes: both end well, or both
fail for the same cause. An action that is put beside itself and looks at nothing but what is common
to the scenes `Respects` the relation between them. No step of a survey looks at the journal, nor at
the number of records so far.
-/

namespace PaddingAudit

open Debug PaddingAudit.Action

variable {ε σ τ α β γ δ : Type}

namespace Action

/-- How two actions come out in two scenes: with `Q` if both end well, and else with one failure. -/
def Together (x : Action ε σ α) (y : Action ε σ β) (s t : Scene σ)
    (Q : α → Scene σ → β → Scene σ → Prop) : Prop :=
  match x s, y t with
  | .ok a s', .ok b t' => Q a s' b t'
  | .error e _, .error e' _ => e = e'
  | _, _ => False

section Together

variable {x : Action ε σ α} {y : Action ε σ β} {f : α → Action ε σ γ} {g : β → Action ε σ δ}
  {s t s' t' : Scene σ} {Q : α → Scene σ → β → Scene σ → Prop}
  {R : γ → Scene σ → δ → Scene σ → Prop}

theorem Together.of_ok {a : α} {b : β} (hx : x s = .ok a s') (hy : y t = .ok b t')
    (h : Q a s' b t') : Together x y s t Q := by
  rw [Together, hx, hy]
  exact h

theorem Together.of_error {e : ε} (hx : x s = .error e s') (hy : y t = .error e t') :
    Together x y s t Q := by
  rw [Together, hx, hy]

/-- Both end well, or both fail. -/
theorem Together.cases (h : Together x y s t Q) :
    (∃ a s' b t', x s = .ok a s' ∧ y t = .ok b t' ∧ Q a s' b t') ∨
      ∃ e s' t', x s = .error e s' ∧ y t = .error e t' := by
  unfold Together at h
  cases hx : x s with
  | ok a s' =>
    cases hy : y t with
    | ok b t' =>
      rw [hx, hy] at h
      exact .inl ⟨a, s', b, t', rfl, rfl, h⟩
    | error e t' => simp [hx, hy] at h
  | error e s' =>
    cases hy : y t with
    | ok b t' => simp [hx, hy] at h
    | error e' t' =>
      rw [hx, hy] at h
      obtain rfl : e = e' := h
      exact .inr ⟨e, s', t', rfl, rfl⟩

theorem Together.congr {x' : Action ε σ α} {y' : Action ε σ β} (hx : x s = x' s') (hy : y t = y' t')
    (h : Together x' y' s' t' Q) : Together x y s t Q := by
  rw [Together, hx, hy]
  exact h

theorem Together.bind (h : Together x y s t Q)
    (hfg : ∀ a s' b t', Q a s' b t' → Together (f a) (g b) s' t' R) :
    Together (x >>= f) (y >>= g) s t R := by
  rcases h.cases with ⟨a, s', b, t', hx, hy, hab⟩ | ⟨e, s', t', hx, hy⟩
  · rw [Together, bind_ok hx, bind_ok hy]
    exact hfg a s' b t' hab
  · exact .of_error (bind_error hx f) (bind_error hy g)

/-- Actions that are in step come out together. -/
theorem InStep.together {E : ε → Scene σ → Scene σ → Prop} (h : InStep x y s t Q E) :
    Together x y s t Q := by
  rcases h.cases with ⟨a, s', b, t', hx, hy, hab⟩ | ⟨e, s', t', hx, hy, -⟩
  · exact .of_ok hx hy hab
  · exact .of_error hx hy

end Together

/-- Scenes whose states are related and that have the same limit, whatever their journals. -/
structure Alike (R : σ → σ → Prop) (s t : Scene σ) : Prop where
  state : R s.state t.state
  limited_eq : s.limited = t.limited

theorem Alike.note {R : σ → σ → Prop} {s t : Scene σ} (h : Alike R s t) (es fs : List Event) :
    Alike R (s.note es) (t.note fs) :=
  ⟨h.state, h.limited_eq⟩

/-- An action that comes to the same in scenes that are alike, and leaves such scenes behind. -/
def Respects (R : σ → σ → Prop) (x : Action ε σ α) : Prop :=
  ∀ s t, Alike R s t → Together x x s t fun a s' b t' => a = b ∧ Alike R s' t'

namespace Respects

variable {R : σ → σ → Prop} {x : Action ε σ α} {f : α → Action ε σ β}

theorem bind (hx : Respects R x) (hf : ∀ a s t, x s = .ok a t → Respects R (f a)) :
    Respects R (x >>= f) := by
  intro s t h
  rcases (hx s t h).cases with ⟨a, s', _, t', hs, ht, rfl, hst⟩ | ⟨e, s', t', hs, ht⟩
  · rw [Together, bind_ok hs, bind_ok ht]
    exact hf a s s' hs s' t' hst
  · exact .of_error (bind_error hs f) (bind_error ht f)

theorem andThen (hx : Respects R x) (hf : ∀ a, Respects R (f a)) : Respects R (x >>= f) :=
  hx.bind fun a _ _ _ => hf a

theorem spells {x : Action Failure σ α} {b : Bool} {a : α} (h : Spells x b a) : Respects R x := by
  intro s t hst
  obtain ⟨es, -, hx⟩ := h
  have hs := hx s
  have ht := hx t
  rw [← hst.limited_eq] at ht
  split at hs
  · rw [if_pos ‹_›] at ht
    exact .of_ok hs ht ⟨rfl, hst.note es es⟩
  · rw [if_neg ‹_›] at ht
    exact .of_error hs ht

theorem log (e : Event) : Respects R (log e : Action ε σ Unit) :=
  fun s t hst => .of_ok (log_apply e s) (log_apply e t) ⟨rfl, hst.note [e] [e]⟩

theorem fail (e : ε) : Respects R (fail e : Action ε σ α) :=
  fun _ _ _ => .of_error rfl rfl

theorem tell (e : Event) : Respects R (tell e) := by
  intro s t hst
  have hpermits : Respects R (permits e.isWritable : Action Failure σ Bool) := by
    intro s t hst
    refine .of_ok rfl rfl ⟨?_, hst⟩
    rw [hst.limited_eq]
  refine hpermits.andThen (fun permitted => ?_) s t hst
  cases permitted with
  | true => exact log e
  | false => exact fail Failure.unwritable

theorem modifyState {g : σ → σ} (hg : ∀ s t, R s t → R (g s) (g t)) :
    Respects R (modifyState g : Action ε σ Unit) :=
  fun _ _ hst => .of_ok rfl rfl ⟨rfl, hg _ _ hst.state, hst.limited_eq⟩

/-- An action on a part looks at nothing but the part. -/
theorem onPart {S : τ → τ → Prop} {part : τ → σ} {replace : σ → τ → τ} (hx : Respects R x)
    (hpart : ∀ s t, S s t → R (part s) (part t))
    (hreplace : ∀ s t a b, S s t → R a b → S (replace a s) (replace b t)) :
    Respects S (x.onPart part replace) := by
  intro s t hst
  have hparts : Alike R { s with state := part s.state } { t with state := part t.state } :=
    ⟨hpart _ _ hst.state, hst.limited_eq⟩
  rcases (hx _ _ hparts).cases with ⟨a, s', _, t', hs, ht, rfl, hst'⟩ | ⟨e, s', t', hs, ht⟩
  · refine .of_ok (by rw [Action.onPart, hs]) (by rw [Action.onPart, ht]) ⟨rfl, ?_, ?_⟩
    · exact hreplace _ _ _ _ hst.state hst'.state
    · exact hst'.limited_eq
  · exact .of_error (by rw [Action.onPart, hs]) (by rw [Action.onPart, ht])

end Respects

end Action

namespace Resolver

/-- A resolver is in step with itself in scenes that differ in their journals only. -/
theorem lockstep_self (r : Resolver) : Lockstep r r Eq (Alike Eq) fun _ _ _ => True where
  sites_eq := rfl
  void := rfl
  note _ _ es fs h := h.note es fs
  find? sc sc' offset h := by
    rw [h.state]
    cases sc'.state.find? offset with
    | none => exact .none
    | some l => exact .some rfl
  asked sc sc' offset h := ⟨by simp only [asked, h.state], h.limited_eq⟩
  concluded s ls ls' sc sc' hls h := by
    rw [List.forall₂_eq_eq_eq] at hls
    simp only [concluded, hls, h.state, h.limited_eq]
    split
    · exact ⟨rfl, trivial⟩
    · split
      · exact ⟨rfl, rfl, rfl⟩
      · exact ⟨rfl, trivial⟩

/-- A resolution looks at the cache only, and not at the journal. -/
theorem respects_resolveWithin (r : Resolver) (depth : Nat) (pending : List Int) (s : Site) :
    Respects Eq (r.resolveWithin depth pending s) :=
  fun _ _ h => (r.lockstep_self.resolveWithin depth pending s h).together

end Resolver

/-! ### Surveys -/

namespace Survey

/-- States that differ in the numbers of records handed on only, which are `m` and `n`. -/
structure Twin (m n : Nat) (st st' : State) : Prop where
  cache : st.cache = st'.cache
  tables : st.tables = st'.tables
  units : st.progress.units = st'.progress.units
  entries : st.progress.entries = st'.progress.entries
  skipped : st.progress.skipped = st'.progress.skipped
  records_left : st.progress.records = m
  records_right : st'.progress.records = n

variable {m n : Nat}

theorem respects_update {g : Progress → Progress}
    (hg : ∀ st st' : State, Twin m n st st' →
      Twin m n { st with progress := g st.progress } { st' with progress := g st'.progress }) :
    Respects (Twin m n) (Progress.update g : Action Failure State Unit) :=
  Respects.modifyState hg

theorem respects_fileTable (u : CompilationUnit) : Respects (Twin m n) (fileTable u) := by
  intro sc sc' h
  cases hf : sc.state.tables.lookup u.offset with
  | some table =>
    have hf' : sc'.state.tables.lookup u.offset = some table := by rw [← h.state.tables, hf]
    exact .of_ok (fileTable_of_known hf) (fileTable_of_known hf') ⟨rfl, h⟩
  | none =>
    have hf' : sc'.state.tables.lookup u.offset = none := by rw [← h.state.tables, hf]
    obtain ⟨es, -, hok⟩ := fileTable_of_unknown hf
    obtain ⟨fs, -, hok'⟩ := fileTable_of_unknown hf'
    refine .of_ok hok hok' ⟨rfl, { h.state with tables := ?_ }, h.limited_eq⟩
    simp only [remembering, Scene.state_note, h.state.tables]

theorem regular_respects (sv : Survey) : sv.Regular (fun _ => True) (Respects (Twin m n)) where
  bind := Respects.bind
  spells := Respects.spells
  tell _ _ _ := Respects.tell _
  countEntry := respects_update fun _ _ h =>
    { h with entries := congrArg (· + 1) h.entries }
  countSkipped := respects_update fun _ _ h =>
    { h with skipped := congrArg (· + 1) h.skipped }
  resolve s _ := Respects.onPart (sv.resolver.respects_resolveWithin Resolver.maxDepth [] s)
    (fun _ _ h => h.cache) fun _ _ _ _ h hcache => { h with cache := hcache }
  fileTable u _ := respects_fileTable u

/-- What is found at a visit does not depend on how many records there were before. -/
theorem respects_recordAt (sv : Survey) (u : CompilationUnit) (visit : Visit) :
    Respects (Twin m n) (sv.recordAt u visit) :=
  (regular_respects sv).recordAt_of_fail Respects.fail trivial visit

/-- Figures of a cache can be told at the end of both walks or of neither. -/
theorem closable_congr {sc sc' : Scene State} (h : Alike (Twin m n) sc sc') :
    closable sc = closable sc' := by
  rw [closable, closable, h.state.cache, h.limited_eq]

theorem together_closeWalk {sc sc' : Scene State} (h : Alike (Twin m n) sc sc') :
    Together closeWalk closeWalk sc sc' fun _ t _ t' => t = closed sc ∧ t' = closed sc' := by
  have hleft := closeWalk_apply sc
  have hright := closeWalk_apply sc'
  rw [← closable_congr h] at hright
  split at hleft
  · rw [if_pos ‹_›] at hright
    exact .of_ok hleft hright ⟨rfl, rfl⟩
  · rw [if_neg ‹_›] at hright
    exact .of_error hleft hright

section Units

variable {work : Action Failure State (Except α β)} {work' : Action Failure State (Except γ δ)}
  {sc sc' t : Scene State} {offset : Int}

theorem trackUnit_of_ok {out : Except α β} (h : work (entered sc offset) = .ok out t) :
    ∃ es, Progress.trackUnit offset work sc = .ok out (t.note es) := by
  have hends : Ends (Progress.trackUnit offset work) sc
      (fun out' t' => out' = out ∧ ∃ es, t' = t.note es) (fun _ _ => False) := by
    refine ends_trackUnit ?_ (fun _ _ _ _ => id) (Ends.of_ok h ⟨rfl, [], by simp⟩)
    rintro _ _ e - ⟨rfl, es, rfl⟩
    exact ⟨rfl, es ++ [e], by simp⟩
  cases hx : Progress.trackUnit offset work sc with
  | ok out' t' =>
    obtain ⟨rfl, es, rfl⟩ := hends.ok hx
    exact ⟨es, rfl⟩
  | error e t' => exact (hends.error hx).elim

theorem trackUnit_of_error {e : Failure} (h : work (entered sc offset) = .error e t) :
    ∃ t', Progress.trackUnit offset work sc = .error e t' := by
  have hends : Ends (Progress.trackUnit offset work) sc (fun _ _ => False) (fun e' _ => e' = e) :=
    ends_trackUnit (fun _ _ _ _ => id) (fun _ _ _ _ => id) (Ends.of_error h rfl)
  cases hx : Progress.trackUnit offset work sc with
  | ok out t' => exact (hends.ok hx).elim
  | error e' t' =>
    obtain rfl := hends.error hx
    exact ⟨t', rfl⟩

theorem together_trackUnit {Q : Except α β → Scene State → Except γ δ → Scene State → Prop}
    (hQ : ∀ a s b t es fs, Q a s b t → Q a (s.note es) b (t.note fs))
    (h : Together work work' (entered sc offset) (entered sc' offset) Q) :
    Together (Progress.trackUnit offset work) (Progress.trackUnit offset work') sc sc' Q := by
  rcases h.cases with ⟨a, s, b, t, hs, ht, hab⟩ | ⟨e, s, t, hs, ht⟩
  · obtain ⟨es, hes⟩ := trackUnit_of_ok hs
    obtain ⟨fs, hfs⟩ := trackUnit_of_ok ht
    exact .of_ok hes hfs (hQ _ _ _ _ es fs hab)
  · obtain ⟨s', hs'⟩ := trackUnit_of_error hs
    obtain ⟨t', ht'⟩ := trackUnit_of_error ht
    exact .of_error hs' ht'

end Units

end Survey

end PaddingAudit
