import Mathlib.Tactic.Common
import PaddingAudit.Action

/-!
# Reasoning about actions

`Action.Ends x s Q E` says how an action that starts in a scene comes out: in a scene of which `Q`
holds if it ends well, and in one of which `E` holds if it fails. There is one rule for each way to
build an action. Readings have a rule of their own: a `Quiet` action gives its value whatever the
scene, and leaves behind nothing but asides. What `Spells` a text does so too, unless a number in
the text is too long.
-/

namespace PaddingAudit

variable {ε σ τ α β : Type}

namespace Scene

def events (s : Scene σ) : List Event :=
  s.journal.toList

/-- A scene with more events in its journal. -/
def note (s : Scene σ) (es : List Event) : Scene σ :=
  { s with journal := s.journal ++ es.toArray }

@[simp]
theorem state_note (s : Scene σ) (es : List Event) : (s.note es).state = s.state := rfl

@[simp]
theorem limited_note (s : Scene σ) (es : List Event) : (s.note es).limited = s.limited := rfl

@[simp]
theorem events_note (s : Scene σ) (es : List Event) : (s.note es).events = s.events ++ es := by
  simp [events, note]

@[simp]
theorem note_nil (s : Scene σ) : s.note [] = s := by
  simp [note]

@[simp]
theorem note_note (s : Scene σ) (es fs : List Event) :
    (s.note es).note fs = s.note (es ++ fs) := by
  simp [note]

end Scene

/-- What is said in passing about an entry that is hard to read. -/
def Event.isAside : Event → Bool
  | .nonNumeric _ _ value => value.isWritable
  | .brokenReference .. | .unhandledTag .. => true
  | _ => false

theorem Event.isWritable_of_isAside {e : Event} (h : e.isAside) : e.isWritable := by
  cases e <;> simp_all [isAside, isWritable]

namespace Action

/-! ### Outcomes -/

/-- How an action comes out in a scene: with `Q` if it ends well, with `E` if it fails. -/
def Ends (x : Action ε σ α) (s : Scene σ) (Q : α → Scene σ → Prop) (E : ε → Scene σ → Prop) :
    Prop :=
  match x s with
  | .ok a t => Q a t
  | .error e t => E e t

variable {x : Action ε σ α} {f : α → Action ε σ β} {s t : Scene σ} {a : α} {e : ε}
  {Q Q' : α → Scene σ → Prop} {E E' : ε → Scene σ → Prop} {R : β → Scene σ → Prop}

theorem Ends.of_ok (h : x s = .ok a t) (hQ : Q a t) : Ends x s Q E := by
  rw [Ends, h]
  exact hQ

theorem Ends.ok (h : Ends x s Q E) (hx : x s = .ok a t) : Q a t := by
  rwa [Ends, hx] at h

theorem Ends.error (h : Ends x s Q E) (hx : x s = .error e t) : E e t := by
  rwa [Ends, hx] at h

/-- An outcome may be weakened. -/
theorem Ends.imp (h : Ends x s Q E) (hQ : ∀ a t, Q a t → Q' a t) (hE : ∀ e t, E e t → E' e t) :
    Ends x s Q' E' := by
  unfold Ends at h ⊢
  split at h
  · exact hQ _ _ h
  · exact hE _ _ h

/-- Two outcomes of one action hold together. -/
theorem Ends.and (h : Ends x s Q E) (h' : Ends x s Q' E') :
    Ends x s (fun a t => Q a t ∧ Q' a t) (fun e t => E e t ∧ E' e t) := by
  unfold Ends at h h' ⊢
  split <;> simp_all

@[simp]
theorem ends_pure : Ends (pure a : Action ε σ α) s Q E ↔ Q a s := Iff.rfl

theorem bind_ok (h : x s = .ok a t) (f : α → Action ε σ β) : (x >>= f) s = f a t := by
  show EStateM.bind x f s = f a t
  rw [EStateM.bind, h]

theorem bind_error (h : x s = .error e t) (f : α → Action ε σ β) : (x >>= f) s = .error e t := by
  show EStateM.bind x f s = .error e t
  rw [EStateM.bind, h]

/-- A step that ends well was made of two that do. -/
theorem of_bind_ok {b : β} {u : Scene σ} (h : (x >>= f) s = .ok b u) :
    ∃ a t, x s = .ok a t ∧ f a t = .ok b u := by
  cases hx : x s with
  | ok a t => exact ⟨a, t, rfl, by rwa [bind_ok hx] at h⟩
  | error e t =>
    rw [bind_error hx] at h
    cases h

@[simp]
theorem ends_bind :
    Ends (x >>= f) s R E ↔ Ends x s (fun a t => Ends (f a) t R E) E := by
  cases hx : x s with
  | ok a t => simp only [Ends, bind_ok hx, hx]
  | error e t => simp only [Ends, bind_error hx, hx]

theorem Ends.bind (h : Ends x s Q E) (hf : ∀ a t, Q a t → Ends (f a) t R E) :
    Ends (x >>= f) s R E :=
  ends_bind.2 (h.imp hf fun _ _ he => he)

/-- What follows on a step need only be looked at for a value that the step has given. -/
theorem Ends.bind_of_ok (h : Ends x s Q E)
    (hf : ∀ a t, x s = .ok a t → Q a t → Ends (f a) t R E) : Ends (x >>= f) s R E := by
  cases hx : x s with
  | ok a t => exact ends_bind.2 (Ends.of_ok hx (hf a t hx (h.ok hx)))
  | error e t =>
    rw [Ends, bind_error hx]
    exact h.error hx

section Primitives

variable {Q₁ : Unit → Scene σ → Prop}

theorem log_apply (ev : Event) (s : Scene σ) :
    (log ev : Action ε σ Unit) s = .ok () (s.note [ev]) := by
  simp [log, Scene.note]

@[simp]
theorem ends_log (ev : Event) : Ends (log ev : Action ε σ Unit) s Q₁ E ↔ Q₁ () (s.note [ev]) := by
  rw [Ends, log_apply]

@[simp]
theorem ends_state {Q₂ : σ → Scene σ → Prop} : Ends (state : Action ε σ σ) s Q₂ E ↔ Q₂ s.state s :=
  Iff.rfl

@[simp]
theorem ends_modifyState (g : σ → σ) :
    Ends (modifyState g : Action ε σ Unit) s Q₁ E ↔ Q₁ () { s with state := g s.state } := Iff.rfl

@[simp]
theorem ends_permits {Q₂ : Bool → Scene σ → Prop} (b : Bool) :
    Ends (permits b : Action ε σ Bool) s Q₂ E ↔ Q₂ (b || !s.limited) s := Iff.rfl

theorem write_apply (b : Bool) (a : α) (s : Scene σ) :
    write b a s = if b || !s.limited then .ok a s else .error .unwritable s := by
  unfold write
  rw [bind_ok (show permits b s = .ok _ s from rfl)]
  split <;> rfl

theorem write_of_permitted {b : Bool} (h : b || !s.limited) (a : α) : write b a s = .ok a s :=
  (write_apply b a s).trans (if_pos h)

theorem write_of_refused {b : Bool} (h : (b || !s.limited) = false) (a : α) :
    write b a s = .error .unwritable s :=
  (write_apply b a s).trans (if_neg (Bool.eq_false_iff.1 h))

theorem of_write_ok {b : Bool} {c : α} (h : write b a s = .ok c t) : c = a ∧ s = t := by
  rw [write_apply] at h
  split at h
  · cases h
    exact ⟨rfl, rfl⟩
  · cases h

/-- A message is written if it can be, and fails otherwise. -/
theorem tell_apply (ev : Event) (s : Scene σ) :
    tell ev s =
      if ev.isWritable || !s.limited then .ok () (s.note [ev]) else .error .unwritable s := by
  unfold tell
  rw [bind_ok (show permits ev.isWritable s = .ok _ s from rfl)]
  split
  · exact log_apply ev s
  · rfl

theorem ends_tell {E₁ : Failure → Scene σ → Prop} (ev : Event) :
    Ends (tell ev) s Q₁ E₁ ↔
      if ev.isWritable || !s.limited then Q₁ () (s.note [ev]) else E₁ .unwritable s := by
  rw [Ends, tell_apply]
  cases ev.isWritable || !s.limited <;> rfl

@[simp]
theorem ends_onPart {y : Action ε σ α} (part : τ → σ) (replace : σ → τ → τ) {s : Scene τ}
    {Q : α → Scene τ → Prop} {E : ε → Scene τ → Prop} :
    Ends (y.onPart part replace) s Q E ↔
      Ends y { s with state := part s.state }
        (fun a t => Q a { t with state := replace t.state s.state })
        (fun e t => E e { t with state := replace t.state s.state }) := by
  unfold Ends onPart
  cases y { s with state := part s.state } <;> rfl

theorem ends_logFailure {P : ε → Prop} (event : ε → Option Event) :
    Ends (x.logFailure event) s Q (fun e _ => P e) ↔ Ends x s Q (fun e _ => P e) := by
  unfold Ends logFailure
  cases x s with
  | ok a t => rfl
  | error e t =>
    dsimp only
    cases event e <;> rfl

end Primitives

/-- A loop keeps what each of its steps keeps. `I` may look at the part of the list that is done. -/
theorem ends_foldlM {step : β → α → Action ε σ β} {l : List α} {b : β}
    {I : List α → β → Scene σ → Prop} (h₀ : I [] b s)
    (hstep : ∀ done a rest, l = done ++ a :: rest → ∀ b t, I done b t →
      Ends (step b a) t (I (done ++ [a])) E) :
    Ends (l.foldlM step b) s (I l) E := by
  suffices ∀ done rest, l = done ++ rest → ∀ b t, I done b t →
      Ends (rest.foldlM step b) t (I l) E from this [] l rfl b s h₀
  intro done rest
  induction rest generalizing done with
  | nil =>
    intro hl b t hI
    rw [List.append_nil] at hl
    exact hl ▸ hI
  | cons a rest ih =>
    intro hl b t hI
    rw [List.foldlM_cons]
    exact (hstep done a rest hl b t hI).bind (ih (done ++ [a]) (by simp [hl]))

/-! ### Readings -/

/-- An action that gives `a` and says the same asides in any scene, and does nothing else. -/
def Quiet (x : Action ε σ α) (a : α) : Prop :=
  ∃ es : List Event, (∀ e ∈ es, e.isAside) ∧ ∀ s, x s = .ok a (s.note es)

/-- What asides cannot change. -/
def IgnoresAsides (I : Scene σ → Prop) : Prop :=
  ∀ s es, (∀ e ∈ es, e.isAside) → I s → I (s.note es)

theorem IgnoresAsides.and {I J : Scene σ → Prop} (hI : IgnoresAsides I) (hJ : IgnoresAsides J) :
    IgnoresAsides fun s => I s ∧ J s :=
  fun s es h hs => ⟨hI s es h hs.1, hJ s es h hs.2⟩

namespace Quiet

theorem pure (a : α) : Quiet (pure a : Action ε σ α) a :=
  ⟨[], by simp, fun s => by simp; rfl⟩

theorem log {ev : Event} (h : ev.isAside) : Quiet (log ev : Action ε σ Unit) () :=
  ⟨[ev], by simpa using h, log_apply ev⟩

theorem bind {b : β} (hx : Quiet x a) (hf : Quiet (f a) b) : Quiet (x >>= f) b := by
  obtain ⟨es, hes, hs⟩ := hx
  obtain ⟨fs, hfs, ht⟩ := hf
  refine ⟨es ++ fs, ?_, fun s => ?_⟩
  · intro e he
    rcases List.mem_append.1 he with he | he
    · exact hes e he
    · exact hfs e he
  · rw [bind_ok (hs s), ht, Scene.note_note]

theorem ends (h : Quiet x a) (hQ : ∀ es : List Event, (∀ e ∈ es, e.isAside) → Q a (s.note es)) :
    Ends x s Q E := by
  obtain ⟨es, hes, hs⟩ := h
  exact Ends.of_ok (hs s) (hQ es hes)

/-- After a reading, the action goes on with the value in a scene with some more asides. -/
theorem ends_bind {I : Scene σ → Prop} (h : Quiet x a) (hI : IgnoresAsides I) (hs : I s)
    (hf : ∀ t, I t → Ends (f a) t R E) : Ends (x >>= f) s R E := by
  refine Ends.bind (h.ends (Q := fun b t => b = a ∧ I t) fun es hes => ⟨rfl, hI s es hes hs⟩) ?_
  rintro _ t ⟨rfl, ht⟩
  exact hf t ht

theorem foldlM {step : β → α → Action ε σ β} {g : β → α → β}
    (h : ∀ b a, Quiet (step b a) (g b a)) (l : List α) (b : β) :
    Quiet (l.foldlM step b) (l.foldl g b) := by
  induction l generalizing b with
  | nil => exact pure b
  | cons a l ih =>
    rw [List.foldlM_cons, List.foldl_cons]
    exact (h b a).bind (ih (g b a))

theorem mapM {step : α → Action ε σ β} {g : α → β} (h : ∀ a, Quiet (step a) (g a)) (l : List α) :
    Quiet (l.mapM step) (l.map g) := by
  induction l with
  | nil => exact pure []
  | cons a l ih =>
    rw [List.mapM_cons, List.map_cons]
    exact (h a).bind (ih.bind (pure _))

end Quiet

/-- An action that says the same asides in any scene and gives `a`, or fails because the text that
it is after cannot be written. -/
def Spells (x : Action Failure σ α) (isWritable : Bool) (a : α) : Prop :=
  ∃ es : List Event, (∀ e ∈ es, e.isAside) ∧ ∀ s, x s =
    if isWritable || !s.limited then .ok a (s.note es) else .error .unwritable (s.note es)

namespace Spells

variable {x : Action Failure σ α} {f : α → Action Failure σ β} {b : Bool}
  {E : Failure → Scene σ → Prop}

theorem write (b : Bool) (a : α) : Spells (write b a : Action Failure σ α) b a :=
  ⟨[], by simp, fun s => by simp [write_apply]⟩

theorem quiet_bind {c : β} (hx : Quiet x a) (hf : Spells (f a) b c) : Spells (x >>= f) b c := by
  obtain ⟨es, hes, hs⟩ := hx
  obtain ⟨fs, hfs, ht⟩ := hf
  refine ⟨es ++ fs, ?_, fun s => ?_⟩
  · intro e he
    rcases List.mem_append.1 he with he | he
    · exact hes e he
    · exact hfs e he
  · rw [bind_ok (hs s), ht, Scene.note_note, Scene.limited_note]

theorem bind_pure {c : β} (hx : Spells x b a) (hf : f a = pure c) : Spells (x >>= f) b c := by
  obtain ⟨es, hes, hs⟩ := hx
  refine ⟨es, hes, fun s => ?_⟩
  cases hb : b || !s.limited with
  | true => exact (bind_ok ((hs s).trans (if_pos hb)) f).trans (congrFun hf _)
  | false => exact bind_error ((hs s).trans (if_neg (Bool.eq_false_iff.1 hb))) f

theorem ends (h : Spells x b a)
    (hQ : (b || !s.limited) = true → ∀ es : List Event, (∀ e ∈ es, e.isAside) → Q a (s.note es))
    (hE : (b || !s.limited) = false → ∀ es : List Event, (∀ e ∈ es, e.isAside) →
      E .unwritable (s.note es)) : Ends x s Q E := by
  obtain ⟨es, hes, hs⟩ := h
  rw [Ends, hs]
  cases hb : b || !s.limited with
  | true => exact hQ hb es hes
  | false => exact hE hb es hes

end Spells

/-- A reading and a text that can be written are the same. -/
theorem Quiet.spells {x : Action Failure σ α} (h : Quiet x a) : Spells x true a := by
  obtain ⟨es, hes, hs⟩ := h
  exact ⟨es, hes, hs⟩

theorem Spells.quiet {x : Action Failure σ α} (h : Spells x true a) : Quiet x a := by
  obtain ⟨es, hes, hs⟩ := h
  exact ⟨es, hes, hs⟩

/-! ### Results -/

/-- What an action comes to in a scene, without the scene that it leaves behind. -/
def result (x : Action ε σ α) (s : Scene σ) : Except ε α :=
  match x s with
  | .ok a _ => .ok a
  | .error e _ => .error e

/-- The scene that an action leaves behind, whether it ends well or fails. -/
def after (x : Action ε σ α) (s : Scene σ) : Scene σ :=
  match x s with
  | .ok _ t => t
  | .error _ t => t

theorem state_apply (s : Scene σ) : (state : Action ε σ σ) s = .ok s.state s := rfl

theorem result_of_ok (h : x s = .ok a t) : x.result s = .ok a := by
  rw [result, h]

theorem ok_of_result (h : x.result s = .ok a) : ∃ t, x s = .ok a t := by
  rw [result] at h
  split at h
  · cases h
    exact ⟨_, by assumption⟩
  · cases h

theorem result_of_error (h : x s = .error e t) : x.result s = .error e := by
  rw [result, h]

theorem error_of_result (h : x.result s = .error e) : ∃ t, x s = .error e t := by
  rw [result] at h
  split at h
  · cases h
  · cases h
    exact ⟨_, by assumption⟩

theorem Ends.result_eq {v : Except ε α}
    (h : Ends x s (fun a _ => v = .ok a) (fun e _ => v = .error e)) : x.result s = v := by
  cases hx : x s with
  | ok a t => rw [result_of_ok hx, h.ok hx]
  | error e t => rw [result_of_error hx, h.error hx]

theorem Ends.of_error (h : x s = .error e t) (hE : E e t) : Ends x s Q E := by
  rw [Ends, h]
  exact hE

theorem Ends.exists_ok (h : Ends x s (fun b _ => b = a) (fun _ _ => False)) :
    ∃ t, x s = .ok a t := by
  cases hx : x s with
  | ok b t => exact ⟨t, by rw [h.ok hx]⟩
  | error e t => exact (h.error hx).elim

theorem Ends.after {I : Scene σ → Prop} (h : Ends x s (fun _ => I) (fun _ => I)) :
    I (x.after s) := by
  unfold Action.after
  cases hx : x s with
  | ok a t => exact h.ok hx
  | error e t => exact h.error hx

theorem Ends.logFailure {event : ε → Option Event}
    (hE : ∀ e ev t, event e = some ev → E e t → E e (t.note [ev])) (h : Ends x s Q E) :
    Ends (x.logFailure event) s Q E := by
  unfold Action.logFailure
  cases hx : x s with
  | ok a t => exact Ends.of_ok (by rw [hx]) (h.ok hx)
  | error e t =>
    cases hev : event e with
    | none => exact Ends.of_error (by simp only [hx, hev]) (h.error hx)
    | some ev =>
      have hnote := hE e ev t hev (h.error hx)
      exact Ends.of_error (by simp only [hx, hev, Scene.note, Array.push_eq_append]) hnote

/-- A reading gives its value wherever it gives one. -/
theorem Quiet.eq_of_ok {b : α} (h : Quiet x a) (hx : x s = .ok b t) : b = a := by
  obtain ⟨es, -, hs⟩ := h
  rw [hs] at hx
  cases hx
  rfl

theorem Spells.eq_of_ok {x : Action Failure σ α} {b : Bool} {c : α} (h : Spells x b a)
    (hx : x s = .ok c t) : c = a := by
  have hends : Ends x s (fun c _ => c = a) (fun _ _ => True) :=
    h.ends (fun _ _ _ => rfl) fun _ _ _ => trivial
  exact hends.ok hx

end Action

end PaddingAudit
