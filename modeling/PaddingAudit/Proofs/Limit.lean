import PaddingAudit.Proofs.Action

/-!
# The limit on decimal text

Numbers beyond a number of digits are not written, and what has to write such a number fails. This
module compares a run under the limit with the run it would be if the limit were lifted: they are
the same as long as all texts and messages of the second one are short enough, and otherwise the
first one fails. The messages are in the journal. Texts that are put together for other ends leave
no trace there, and what is known of them beforehand is a parameter.
-/

namespace PaddingAudit

variable {σ τ α β : Type}

namespace Scene

def lifted (s : Scene σ) : Scene σ :=
  { s with limited := false }

def bounded (s : Scene σ) : Scene σ :=
  { s with limited := true }

theorem lifted_eq {s : Scene σ} (h : s.limited = false) : s.lifted = s := by
  cases s
  simp_all [lifted]

end Scene

namespace Action

variable {x : Action Failure σ α} {f : α → Action Failure σ β} {legible : Prop}
  {whole spoiled : α → Prop} {whole' spoiled' : β → Prop}

/-- How a run under the limit follows from a run without it that gives a whole result and tells
`es`. Either they are the same, or the first one fails or gives a spoiled result. It does so only if
some event of the second one, or one of the other texts, which `legible` rules out, cannot be
written. -/
def Follows (legible : Prop) (spoiled : α → Prop) (x : Action Failure σ α) (s : Scene σ) (a : α)
    (t : Scene σ) (es : List Event) : Prop :=
  es.all Event.isWritable ∧ x s.bounded = .ok a t.bounded ∨
    ¬ (legible ∧ es.all Event.isWritable) ∧
      Ends x s.bounded (fun b _ => spoiled b) (fun e _ => e = .unwritable)

/-- An action whose runs under the limit follow from those without it. -/
def Orderly (legible : Prop) (whole spoiled : α → Prop) (x : Action Failure σ α) : Prop :=
  ∀ (s : Scene σ) (a : α) (t : Scene σ), x s.lifted = .ok a t → whole a →
    ∃ es : List Event, t.limited = false ∧ t.events = s.events ++ es ∧
      Follows legible spoiled x s a t es

/-- An orderly action whose results are all whole: under the limit it can only fail. -/
abbrev Tells (legible : Prop) (x : Action Failure σ α) : Prop :=
  Orderly legible (fun _ => True) (fun _ => False) x

/-- An orderly action that may be interrupted, and is by what cannot be written. -/
abbrev Passes (legible : Prop) (x : Action Failure σ (Except Failure α)) : Prop :=
  Orderly legible (fun a => ∃ b, a = .ok b) (fun a => a = .error .unwritable) x

theorem Orderly.bind (hx : Orderly legible whole spoiled x)
    (hf : ∀ a, whole a → Orderly legible whole' spoiled' (f a))
    (hwhole : ∀ a s b t, f a s = .ok b t → whole' b → whole a)
    (hspoiled : ∀ a s, spoiled a →
      Ends (f a) s (fun b _ => spoiled' b) (fun e _ => e = .unwritable)) :
    Orderly legible whole' spoiled' (x >>= f) := by
  intro s b u hb hwb
  obtain ⟨a, t, ha, hft⟩ := of_bind_ok hb
  have hwa := hwhole a t b u hft hwb
  obtain ⟨es, ht, hes, hx'⟩ := hx s a t ha hwa
  rw [← Scene.lifted_eq ht] at hft
  obtain ⟨fs, hu, hfs, hf'⟩ := hf a hwa t b u hft hwb
  refine ⟨es ++ fs, hu, by rw [hfs, hes, List.append_assoc], ?_⟩
  unfold Follows
  rw [List.all_append, Bool.and_eq_true]
  rcases hx' with ⟨hw, hx'⟩ | ⟨hlong, hx'⟩
  · rcases hf' with ⟨hw', hf'⟩ | ⟨hlong, hf'⟩
    · exact .inl ⟨⟨hw, hw'⟩, (bind_ok hx' f).trans hf'⟩
    · refine .inr ⟨fun h => hlong ⟨h.1, h.2.2⟩, ?_⟩
      rw [Ends, bind_ok hx']
      exact hf'
  · -- The first part has too much to write: what the second one does no longer matters.
    exact .inr ⟨fun h => hlong ⟨h.1, h.2.1⟩, hx'.bind fun b' t' hb' => hspoiled b' t' hb'⟩

theorem Tells.bind (hx : Tells legible x) (hf : ∀ a, Orderly legible whole' spoiled' (f a)) :
    Orderly legible whole' spoiled' (x >>= f) :=
  Orderly.bind hx (fun a _ => hf a) (fun _ _ _ _ _ _ => trivial) (fun _ _ h => h.elim)

/-- An interruption is handed on, and what is not interrupted goes on. -/
theorem Passes.bind {y : Action Failure σ (Except Failure α)}
    {k : Except Failure α → Action Failure σ (Except Failure β)} (hy : Passes legible y)
    (herror : ∀ e, k (.error e) = pure (.error e)) (hok : ∀ a, Passes legible (k (.ok a))) :
    Passes legible (y >>= k) := by
  refine Orderly.bind hy ?_ ?_ ?_
  · rintro _ ⟨a, rfl⟩
    exact hok a
  · rintro (e | a) s c t hc ⟨d, rfl⟩
    · rw [herror] at hc
      cases hc
    · exact ⟨a, rfl⟩
  · rintro _ s rfl
    rw [herror]
    rfl

/-- The outcome under the limit of an action that only fails for it: the one without the limit, or a
failure for something that cannot be written. -/
theorem Tells.outcome_cases (hx : Tells legible x) {st : σ} {a : α} {t : Scene σ}
    (h : x { state := st, limited := false } = .ok a t) :
    (x.outcome st).1 = .ok a ∧ t.events.all Event.isWritable ∨
      (x.outcome st).1 = .error .unwritable ∧ ¬ (legible ∧ t.events.all Event.isWritable) := by
  obtain ⟨es, -, hes, hx'⟩ := hx { state := st } a t h trivial
  have hevents : t.events = es := by simpa [Scene.events] using hes
  rw [hevents]
  unfold outcome
  rcases hx' with ⟨hw, hx'⟩ | ⟨hlong, hx'⟩
  · have hok : x { state := st } = .ok a t.bounded := hx'
    exact .inl ⟨by rw [hok], hw⟩
  · refine .inr ⟨?_, hlong⟩
    cases hxs : x { state := st } with
    | ok b u => exact (hx'.ok hxs).elim
    | error e u => rw [hx'.error hxs]

/-! ### Steps -/

/-- A step on the state that tells nothing. -/
theorem orderly_of_step {g : σ → α × σ}
    (hx : ∀ s, x s = .ok (g s.state).1 { s with state := (g s.state).2 }) :
    Orderly legible whole spoiled x := by
  intro s a t ha _
  rw [hx] at ha
  cases ha
  exact ⟨[], rfl, by simp [Scene.events, Scene.lifted], .inl ⟨rfl, hx s.bounded⟩⟩

theorem orderly_pure (a : α) : Orderly legible whole spoiled (pure a : Action Failure σ α) :=
  orderly_of_step (g := fun s => (a, s)) fun _ => rfl

theorem tells_state : Tells legible (state : Action Failure σ σ) :=
  orderly_of_step (g := fun s => (s, s)) fun _ => rfl

theorem tells_modifyState (g : σ → σ) : Tells legible (modifyState g : Action Failure σ Unit) :=
  orderly_of_step (g := fun s => ((), g s)) fun _ => rfl

theorem orderly_fail (e : Failure) :
    Orderly legible whole spoiled (fail e : Action Failure σ α) := by
  intro s a t ha
  cases ha

theorem tells_log {ev : Event} (h : ev.isWritable) :
    Tells legible (log ev : Action Failure σ Unit) := by
  intro s a t ha _
  rw [log_apply] at ha
  cases ha
  exact ⟨[ev], rfl, by simp [Scene.events, Scene.lifted, Scene.note],
    .inl ⟨by simp [h], log_apply ev s.bounded⟩⟩

/-- What is done if an event can be written, and tells it, is done under the limit exactly if the
event can be written. -/
theorem orderly_permits {y z : Action Failure σ α} {a : α} {ev : Event}
    (hz : ∀ s, z s = .ok a (s.note [ev]))
    (hy : ∀ s, Ends y s (fun b _ => spoiled b) (fun e _ => e = .unwritable)) :
    Orderly legible whole spoiled (permits ev.isWritable >>= fun b => if b then z else y) := by
  have happly : ∀ s : Scene σ, (permits ev.isWritable >>= fun b => if b then z else y) s =
      if ev.isWritable || !s.limited then .ok a (s.note [ev]) else y s := by
    intro s
    have hpermits : (permits ev.isWritable : Action Failure σ Bool) s =
        .ok (ev.isWritable || !s.limited) s := rfl
    rw [bind_ok hpermits]
    split
    · exact hz s
    · rfl
  intro s b t hb _
  rw [happly, if_pos (by simp [Scene.lifted])] at hb
  cases hb
  refine ⟨[ev], rfl, by simp [Scene.events, Scene.lifted, Scene.note], ?_⟩
  by_cases h : ev.isWritable
  · exact .inl ⟨by simp [h], (happly _).trans (if_pos (by simp [h]))⟩
  · refine .inr ⟨by simp [h], ?_⟩
    rw [Ends, happly, if_neg (by simp [h, Scene.bounded])]
    exact hy s.bounded

theorem tells_tell (ev : Event) : Tells legible (tell ev : Action Failure σ Unit) :=
  orderly_permits (log_apply ev) fun _ => rfl

/-- Asides can always be written, and so can a text that is legible. -/
theorem Spells.orderly {a : α} {b : Bool} (hx : Spells x b a) (h : legible → b = true) :
    Orderly legible whole spoiled x := by
  obtain ⟨es, hes, hs⟩ := hx
  intro s c t hc _
  rw [hs, if_pos (by simp [Scene.lifted])] at hc
  cases hc
  have hwritable : es.all Event.isWritable :=
    List.all_eq_true.2 fun e he => Event.isWritable_of_isAside (hes e he)
  refine ⟨es, rfl, Scene.events_note s.lifted es, ?_⟩
  by_cases hb : b = true
  · exact .inl ⟨hwritable, (hs s.bounded).trans (if_pos (by simp [hb]))⟩
  · refine .inr ⟨fun hlegible => hb (h hlegible.1), ?_⟩
    rw [Ends, hs, if_neg (by simp [hb, Scene.bounded])]

theorem Quiet.orderly {a : α} (hx : Quiet x a) : Orderly legible whole spoiled x :=
  hx.spells.orderly fun _ => rfl

theorem Tells.bind_of_quiet {a : α} (hx : Quiet x a) (hf : Orderly legible whole' spoiled' (f a)) :
    Orderly legible whole' spoiled' (x >>= f) := by
  obtain ⟨es, hes, hs⟩ := hx
  have happly : ∀ s, (x >>= f) s = f a (s.note es) := fun s => bind_ok (hs s) f
  intro s b u hb hwb
  rw [happly] at hb
  obtain ⟨fs, hu, hfs, hf'⟩ := hf (s.note es) b u hb hwb
  have hwritable : es.all Event.isWritable :=
    List.all_eq_true.2 fun e he => Event.isWritable_of_isAside (hes e he)
  refine ⟨es ++ fs, hu, by rw [hfs, Scene.events_note, List.append_assoc], ?_⟩
  unfold Follows
  rw [List.all_append, hwritable, Bool.true_and, Ends, happly]
  exact hf'

theorem Orderly.onPart {y : Action Failure τ α} (hy : Orderly legible whole spoiled y)
    (part : σ → τ) (replace : τ → σ → σ) :
    Orderly legible whole spoiled (y.onPart part replace) := by
  intro s a t ha hwa
  unfold Action.onPart at ha
  cases hya : y ({ s with state := part s.state } : Scene τ).lifted with
  | error e u =>
    have : y { s.lifted with state := part s.lifted.state } = .error e u := hya
    rw [this] at ha
    cases ha
  | ok b u =>
    have hb : y { s.lifted with state := part s.lifted.state } = .ok b u := hya
    rw [hb] at ha
    cases ha
    obtain ⟨es, hu, hes, hy'⟩ := hy _ _ _ hya hwa
    refine ⟨es, hu, hes, ?_⟩
    rcases hy' with ⟨hw, hy'⟩ | ⟨hlong, hy'⟩
    · have : y { s.bounded with state := part s.bounded.state } = .ok a u.bounded := hy'
      refine .inl ⟨hw, ?_⟩
      rw [Action.onPart, this]
      rfl
    · exact .inr ⟨hlong, (ends_onPart part replace).2 hy'⟩

theorem Orderly.logFailure (hx : Orderly legible whole spoiled x) (event : Failure → Option Event) :
    Orderly legible whole spoiled (x.logFailure event) := by
  have hok : ∀ s a t, x.logFailure event s = .ok a t ↔ x s = .ok a t := by
    intro s a t
    unfold Action.logFailure
    cases x s with
    | ok b u => rfl
    | error e u =>
      dsimp only
      split <;> simp
  intro s a t ha hwa
  obtain ⟨es, ht, hes, hx'⟩ := hx s a t ((hok _ _ _).1 ha) hwa
  refine ⟨es, ht, hes, ?_⟩
  rcases hx' with ⟨hw, hx'⟩ | ⟨hlong, hx'⟩
  · exact .inl ⟨hw, (hok _ _ _).2 hx'⟩
  · exact .inr ⟨hlong, (ends_logFailure event).2 hx'⟩

theorem Tells.foldlM {step : β → α → Action Failure σ β} (h : ∀ b a, Tells legible (step b a))
    (l : List α) (b : β) : Tells legible (l.foldlM step b) := by
  induction l generalizing b with
  | nil => exact orderly_pure b
  | cons a l ih =>
    rw [List.foldlM_cons]
    exact (h b a).bind ih

theorem Tells.mapM {step : α → Action Failure σ β} {l : List α}
    (h : ∀ a ∈ l, Tells legible (step a)) : Tells legible (l.mapM step) := by
  induction l with
  | nil => exact orderly_pure []
  | cons a l ih =>
    obtain ⟨ha, hl⟩ := List.forall_mem_cons.1 h
    rw [List.mapM_cons]
    exact ha.bind fun b => (ih hl).bind fun bs => orderly_pure _

end Action

end PaddingAudit
