import Mathlib.Data.List.Nodup
import PaddingAudit.Proofs.Admission
import PaddingAudit.Proofs.Resolution

/-!
# Steps of a survey

A property that readings, messages, counts, resolutions and file tables have, and that putting steps
one after the other keeps, is had by all that a survey does at a visit. Such a property is
`Regular`. The walk through the units is for each property to go through on its own, as its records
are handed on to somebody else.

The first property of this kind is `Sturdy`: nothing but the limit on decimal text makes a step
fail.
-/

namespace PaddingAudit

open Debug PaddingAudit.Action

variable {ε σ α β : Type}

namespace Survey

/-- The scene before anything was asked. `limited` says whether the limit on decimal text is in
force. -/
def start (sv : Survey) (limited : Bool) : Scene State where
  state := .fresh sv.tuning
  limited := limited

def layouts (sc : Scene State) : Scene Cache :=
  { sc with state := sc.state.cache }

theorem resolving_of_ok {x : Action Failure Cache α} {sc : Scene State} {a : α} {t : Scene Cache}
    (h : x { sc with state := sc.state.cache } = .ok a t) :
    resolving x sc = .ok a { t with state := { sc.state with cache := t.state } } := by
  simp only [resolving, onPart, h]

theorem resolving_of_error {x : Action Failure Cache α} {sc : Scene State} {e : Failure}
    {t : Scene Cache} (h : x { sc with state := sc.state.cache } = .error e t) :
    resolving x sc = .error e { t with state := { sc.state with cache := t.state } } := by
  simp only [resolving, onPart, h]

theorem resolving_bind (x : Action Failure Cache α) (f : α → Action Failure Cache β) :
    resolving (x >>= f) = resolving x >>= fun a => resolving (f a) := by
  funext sc
  cases hx : x { sc with state := sc.state.cache } with
  | error e t =>
    rw [bind_error (resolving_of_error hx), resolving_of_error (bind_error hx f)]
  | ok a t =>
    rw [bind_ok (resolving_of_ok hx)]
    cases hf : f a t with
    | ok b u => rw [resolving_of_ok ((bind_ok hx f).trans hf), resolving_of_ok hf]
    | error e u => rw [resolving_of_error ((bind_ok hx f).trans hf), resolving_of_error hf]

theorem quiet_resolving {x : Action Failure Cache α} {a : α} (h : Quiet x a) :
    Quiet (resolving x) a := by
  obtain ⟨es, hes, hs⟩ := h
  exact ⟨es, hes, fun sc => resolving_of_ok (hs _)⟩

/-- The scene in which the work on a unit starts. -/
def entered (sc : Scene State) (offset : Int) : Scene State :=
  let number := sc.state.progress.units + 1
  { sc with state := { sc.state with progress := { sc.state.progress with units := number } } }.note
    [.unitEntered number offset]

/-- Work on a unit comes to what the work comes to. All that is added is told, and no event that is
told is a cut. -/
theorem ends_trackUnit {ι : Type} {work : Action Failure State (Except ι β)} {sc : Scene State}
    {offset : Int} {Q : Except ι β → Scene State → Prop} {E : Failure → Scene State → Prop}
    (hQ : ∀ a t ev, ev.cutAt? = none → Q a t → Q a (t.note [ev]))
    (hE : ∀ e t ev, ev.cutAt? = none → E e t → E e (t.note [ev]))
    (h : Ends work (entered sc offset) Q E) : Ends (Progress.trackUnit offset work) sc Q E := by
  unfold Progress.trackUnit Progress.current Progress.update
  simp only [bind_assoc, pure_bind, ends_bind, ends_state, ends_modifyState, ends_log]
  refine Ends.imp (Ends.logFailure ?_ h) ?_ fun _ _ he => he
  · intro e ev t hev he
    cases hev
    exact hE e t _ rfl he
  intro result t hr
  cases result with
  | error interruption => exact hr
  | ok b =>
    simp only [ends_bind, ends_state, ends_log, ends_pure]
    exact hQ _ t _ rfl hr

/-! ### Walks -/

section Walk

variable {ι : Type} {sv : Survey} {step : β → Record → Action Failure State (Except ι β)}
  {Q : Except ι β → Scene State → Prop} {E : Failure → Scene State → Prop}
  {F : Record → Scene State → Prop} {sc : Scene State}

/-- What the visits and the steps of a walk keep, the walk through a unit keeps. `F` says what is
known of a record when it is found. -/
theorem ends_foldVisits {u : CompilationUnit} {visits : List Visit}
    (hvisit : ∀ visit ∈ visits, ∀ b sc, Q (.ok b) sc →
      Ends (sv.recordAt u visit) sc (fun r? sc' => Q (.ok b) sc' ∧ ∀ r, r? = some r → F r sc') E)
    (hstep : ∀ b r sc, Q (.ok b) sc → F r sc →
      Ends (Progress.countRecord >>= fun _ => step b r) sc Q E)
    (seen : List Identity) {b : β} (h : Q (.ok b) sc) :
    Ends (sv.foldVisits step u visits seen b) sc (fun out => Q (out.map Prod.snd)) E := by
  induction visits generalizing seen b sc with
  | nil => exact h
  | cons visit visits ih =>
    have hrest : ∀ seen b sc, Q (.ok b) sc →
        Ends (sv.foldVisits step u visits seen b) sc (fun out => Q (out.map Prod.snd)) E :=
      fun seen _ _ => ih (fun v hv => hvisit v (by simp [hv])) seen
    refine (hvisit visit (by simp) b sc h).bind ?_
    rintro (_ | r) sc' ⟨hsc', hr⟩
    · exact hrest _ _ _ hsc'
    dsimp only
    split
    · exact hrest _ _ _ hsc'
    rw [← bind_assoc]
    refine (hstep b r sc' hsc' (hr r rfl)).bind ?_
    rintro (interruption | next) sc'' hsc''
    · exact hsc''
    · exact hrest _ _ _ hsc''

theorem ends_foldUnits {units : List CompilationUnit}
    (hQ : ∀ a t ev, ev.cutAt? = none → Q a t → Q a (t.note [ev]))
    (hE : ∀ e t ev, ev.cutAt? = none → E e t → E e (t.note [ev]))
    (hentered : ∀ b sc offset, Q (.ok b) sc → Q (.ok b) (entered sc offset))
    (hvisit : ∀ u ∈ units, ∀ visit ∈ u.visits, ∀ b sc, Q (.ok b) sc →
      Ends (sv.recordAt u visit) sc (fun r? sc' => Q (.ok b) sc' ∧ ∀ r, r? = some r → F r sc') E)
    (hstep : ∀ b r sc, Q (.ok b) sc → F r sc →
      Ends (Progress.countRecord >>= fun _ => step b r) sc Q E)
    (seen : List Identity) {b : β} (h : Q (.ok b) sc) :
    Ends (sv.foldUnits step units seen b) sc (fun out => Q (out.map Prod.snd)) E := by
  induction units generalizing seen b sc with
  | nil => exact h
  | cons u units ih =>
    have hwork := ends_foldVisits (hvisit u (by simp)) hstep seen (hentered b sc u.offset h)
    refine (ends_trackUnit (fun out => hQ (out.map Prod.snd)) hE hwork).bind ?_
    rintro (interruption | ⟨reported, next⟩) sc' hsc'
    · exact hsc'
    · exact ih (fun v hv => hvisit v (by simp [hv])) reported hsc'

/-- Whether the figures of the cache can be told at the end of a walk. -/
def closable (sc : Scene State) : Bool :=
  Text.isWritable sc.state.cache.capacity || !sc.limited

/-- The scene at the end of a walk, when the counts are told and the figures of the cache. -/
def closed (sc : Scene State) : Scene State :=
  (sc.note [.surveyed sc.state.progress]).note [.cacheUsed sc.state.cache.stats]

theorem closeWalk_apply (sc : Scene State) :
    closeWalk sc =
      if closable sc then .ok () (closed sc)
      else .error .unwritable (sc.note [.surveyed sc.state.progress]) := by
  have hsummarise : (Progress.summarise : Action Failure State Unit) sc =
      .ok () (sc.note [.surveyed sc.state.progress]) := log_apply _ sc
  rw [closeWalk, bind_ok hsummarise, bind_ok (state_apply _), tell_apply]
  rfl

theorem ends_closeWalk {Q : Unit → Scene State → Prop} :
    Ends closeWalk sc Q E ↔
      if closable sc then Q () (closed sc)
      else E .unwritable (sc.note [.surveyed sc.state.progress]) := by
  rw [Ends, closeWalk_apply]
  cases closable sc <;> rfl

/-- What the visits and the steps of a walk keep, and what allows for figures of the cache that
cannot be told, the whole walk keeps. -/
theorem ends_foldRecords (hQ : ∀ a t ev, ev.cutAt? = none → Q a t → Q a (t.note [ev]))
    (hE : ∀ e t ev, ev.cutAt? = none → E e t → E e (t.note [ev]))
    (hentered : ∀ b sc offset, Q (.ok b) sc → Q (.ok b) (entered sc offset))
    (hvisit : ∀ u ∈ sv.units, ∀ visit ∈ u.visits, ∀ b sc, Q (.ok b) sc →
      Ends (sv.recordAt u visit) sc (fun r? sc' => Q (.ok b) sc' ∧ ∀ r, r? = some r → F r sc') E)
    (hstep : ∀ b r sc, Q (.ok b) sc → F r sc →
      Ends (Progress.countRecord >>= fun _ => step b r) sc Q E)
    (hclose : ∀ b sc, Q (.ok b) sc → closable sc = false → E .unwritable sc)
    {b : β} (h : Q (.ok b) sc) : Ends (sv.foldRecords step b) sc Q E := by
  refine (ends_foldUnits hQ hE hentered hvisit hstep [] h).bind ?_
  rintro (interruption | ⟨reported, result⟩) sc' hsc'
  · exact hsc'
  · show Ends (closeWalk >>= _) sc' Q E
    rw [ends_bind, ends_closeWalk]
    cases hcan : closable sc' with
    | true => exact hQ _ _ _ rfl (hQ _ _ _ rfl hsc')
    | false => exact hE _ _ _ rfl (hclose result sc' hsc' hcan)

end Walk

/-- The step of an enumeration that stops when there are enough records. -/
def stepUpTo (limit : Nat) (rs : List Record) (r : Record) :
    Except (List Record) (List Record) :=
  if rs.length + 1 < limit then .ok (rs ++ [r]) else .error (rs ++ [r])

/-- The records that were handed on, up to the end or to an interruption. -/
def handedOn : Except (List Record) (List Record) → List Record
  | .ok rs => rs
  | .error rs => rs

theorem handedOn_stepUpTo (limit : Nat) (rs : List Record) (r : Record) :
    handedOn (stepUpTo limit rs r) = rs ++ [r] := by
  unfold stepUpTo
  split <;> rfl

/-! ### Source files -/

/-- A scene in which the source files of one more unit are remembered. -/
def remembering (u : CompilationUnit) (sc : Scene State) : Scene State :=
  { sc with state := { sc.state with
      tables := (u.offset, FileTable.ofLineProgram u.lineProgram) :: sc.state.tables } }

section FileTable

variable {u : CompilationUnit} {sc : Scene State}

theorem fileTable_of_known {table : FileTable}
    (h : sc.state.tables.lookup u.offset = some table) : fileTable u sc = .ok table sc := by
  unfold fileTable
  rw [bind_ok (state_apply sc), h]
  rfl

theorem fileTable_of_unknown (h : sc.state.tables.lookup u.offset = none) :
    ∃ es : List Event, (∀ e ∈ es, e.cutAt? = none) ∧
      fileTable u sc = .ok (.ofLineProgram u.lineProgram) (remembering u (sc.note es)) := by
  unfold fileTable
  rw [bind_ok (state_apply sc), h]
  unfold remembering
  cases u.lineProgram with
  | broken cause =>
    refine ⟨[.noLineProgram u.offset cause], ?_, bind_ok (log_apply _ sc) _⟩
    simp [Event.cutAt?]
  | absent => exact ⟨[], by simp, by rw [Scene.note_nil]; rfl⟩
  | present version directories files => exact ⟨[], by simp, by rw [Scene.note_nil]; rfl⟩

/-- The source files that a scene remembers of a unit, or else those that the unit has. -/
def knownFiles (sc : Scene State) (u : CompilationUnit) : FileTable :=
  (sc.state.tables.lookup u.offset).getD (.ofLineProgram u.lineProgram)

theorem fileTable_apply (u : CompilationUnit) (sc : Scene State) :
    ∃ sc', sc'.limited = sc.limited ∧ fileTable u sc = .ok (knownFiles sc u) sc' := by
  unfold knownFiles
  cases hf : sc.state.tables.lookup u.offset with
  | some table => exact ⟨sc, rfl, fileTable_of_known hf⟩
  | none =>
    obtain ⟨es, -, hok⟩ := fileTable_of_unknown hf
    exact ⟨remembering u (sc.note es), rfl, hok⟩

/-- The place of an entry with the files of a table, however long the number of its file is. -/
def plainLocation? (table : FileTable) (e : Entry) : Option Location :=
  (e.int? .declFile).map fun number =>
    { file := plainFileName table number
      line := (e.int? .declLine).getD 0
      column := (e.int? .declColumn).getD 0 }

/-- Whether the place of an entry can be written: a file that the table does not have goes by its
number. -/
def locationIsWritable (table : FileTable) (e : Entry) : Bool :=
  (e.int? .declFile).all (fileNameIsWritable table)

theorem ends_locationOf (u : CompilationUnit) (e : Entry) (sc : Scene State) :
    Ends (locationOf u e) sc
      (fun location? _ => location? = plainLocation? (knownFiles sc u) e ∧
        (locationIsWritable (knownFiles sc u) e || !sc.limited) = true)
      (fun cause sc' => cause = .unwritable ∧ sc'.limited = sc.limited ∧
        (locationIsWritable (knownFiles sc u) e || !sc.limited) = false) := by
  have hany : IgnoresAsides fun _ : Scene State => True := fun _ _ _ => id
  -- A note in the journal changes nothing about the files that are known.
  have hknown : IgnoresAsides fun sc' =>
      knownFiles sc' u = knownFiles sc u ∧ sc'.limited = sc.limited := fun _ _ _ => id
  refine (e.quiet_readInt .declFile).ends_bind hknown ⟨rfl, rfl⟩ fun sc₁ ⟨hfiles, hl₁⟩ => ?_
  unfold plainLocation? locationIsWritable
  cases e.int? .declFile with
  | none => exact ⟨rfl, rfl⟩
  | some number =>
    obtain ⟨sc₂, hl₂, htable⟩ := fileTable_apply u sc₁
    rw [hl₁] at hl₂
    rw [hfiles] at htable
    dsimp only [Option.map_some, Option.all_some]
    rw [ends_bind]
    apply Ends.of_ok htable
    rw [ends_bind]
    refine (spells_fileName (knownFiles sc u) number).ends (fun hwritable es _ => ?_)
      fun hlong es _ => ⟨rfl, hl₂, hl₂ ▸ hlong⟩
    refine (e.quiet_readInt .declLine).ends_bind hany trivial fun sc₃ _ => ?_
    refine (e.quiet_readInt .declColumn).ends_bind hany trivial fun sc₄ _ => ?_
    exact ⟨rfl, hl₂ ▸ hwritable⟩

end FileTable

/-- A scene that remembers of each unit its own source files. -/
def OwnFiles (sv : Survey) (sc : Scene State) : Prop :=
  ∀ u ∈ sv.units, ∀ table, sc.state.tables.lookup u.offset = some table →
    table = .ofLineProgram u.lineProgram

/-- Units are told apart by their offsets, and so the files of one are not taken for those of
another. -/
theorem OwnFiles.remembering {sv : Survey} {u : CompilationUnit} {sc : Scene State}
    (hunits : (sv.units.map fun u => u.offset).Nodup) (hu : u ∈ sv.units) (h : sv.OwnFiles sc) :
    sv.OwnFiles (remembering u sc) := by
  intro v hv table ht
  by_cases heq : v.offset = u.offset
  · obtain rfl := List.inj_on_of_nodup_map hunits hv hu heq
    simpa [Survey.remembering, eq_comm] using ht
  · exact h v hv table (by simpa [Survey.remembering, lookup_cons_eq_ite, heq] using ht)

theorem OwnFiles.knownFiles_eq {sv : Survey} {u : CompilationUnit} {sc : Scene State}
    (h : sv.OwnFiles sc) (hu : u ∈ sv.units) : knownFiles sc u = .ofLineProgram u.lineProgram := by
  unfold knownFiles
  cases hf : sc.state.tables.lookup u.offset with
  | some table => exact h u hu table hf
  | none => rfl

/-! ### Regular properties -/

/-- A property of steps that all steps of a survey have. `U` says which units the file tables may be
of. What follows on a step matters only for the values that the step can give. -/
structure Regular (sv : Survey) (U : CompilationUnit → Prop)
    (P : ∀ {α : Type}, Action Failure State α → Prop) : Prop where
  bind : ∀ {α β : Type} {x : Action Failure State α} {f : α → Action Failure State β}, P x →
    (∀ a s t, x s = .ok a t → P (f a)) → P (x >>= f)
  spells : ∀ {α : Type} {x : Action Failure State α} {b : Bool} {a : α}, Spells x b a → P x
  tell : ∀ label offset reason, P (Action.tell (.recordSkipped label offset reason))
  countEntry : P Progress.countEntry
  countSkipped : P Progress.countSkipped
  resolve : ∀ s, sv.resolver.Holds s → P (resolving (sv.resolver.resolve (some s)))
  fileTable : ∀ u, U u → P (fileTable u)

namespace Regular

variable {sv : Survey} {U : CompilationUnit → Prop}
  {P : ∀ {α : Type}, Action Failure State α → Prop} {u : CompilationUnit}

theorem quiet {x : Action Failure State α} {a : α} (h : sv.Regular U P) (hx : Quiet x a) : P x :=
  h.spells hx.spells

theorem pure (h : sv.Regular U P) (a : α) : P (pure a : Action Failure State α) :=
  h.quiet (.pure a)

theorem andThen {x : Action Failure State α} {f : α → Action Failure State β} (h : sv.Regular U P)
    (hx : P x) (hf : ∀ a, P (f a)) : P (x >>= f) :=
  h.bind hx fun a _ _ _ => hf a

theorem spelling {x : Action Failure State α} {f : α → Action Failure State β} {b : Bool} {a : α}
    (h : sv.Regular U P) (hx : Spells x b a) (hf : P (f a)) : P (x >>= f) := by
  refine h.bind (h.spells hx) fun c _ _ hc => ?_
  rw [hx.eq_of_ok hc]
  exact hf

theorem reading {x : Action Failure State α} {f : α → Action Failure State β} {a : α}
    (h : sv.Regular U P) (hx : Quiet x a) (hf : P (f a)) : P (x >>= f) :=
  h.spelling hx.spells hf

theorem resolveMember (h : sv.Regular U P) (member : Entry) :
    P (resolving (sv.resolver.resolveMember member)) := by
  unfold Resolver.resolveMember
  rw [resolving_bind]
  apply h.reading (quiet_resolving (member.quiet_followType _))
  rw [resolving_bind]
  have hlayout : P (resolving (sv.resolver.resolve (member.target? sv.resolver.sites))) := by
    cases ht : member.target? sv.resolver.sites with
    | none => exact h.quiet (quiet_resolving (.pure _))
    | some s => exact h.resolve s (Resolver.holds_of_target ht)
  apply h.andThen hlayout
  intro layout
  rw [resolving_bind]
  apply h.reading (quiet_resolving member.quiet_readAlignment)
  cases member.explicitAlignment? <;> exact h.quiet (quiet_resolving (.pure _))

theorem fieldOf (h : sv.Regular U P) (member : Entry) : P (sv.fieldOf member) := by
  apply h.andThen (h.resolveMember member)
  intro layout
  exact h.spelling (spells_memberName member) (h.pure _)

theorem mapM {step : α → Action Failure State β} (h : sv.Regular U P) (hstep : ∀ a, P (step a))
    (l : List α) : P (l.mapM step) := by
  induction l with
  | nil => exact h.pure []
  | cons a l ih =>
    rw [List.mapM_cons]
    exact h.andThen (hstep a) fun b => h.andThen ih fun bs => h.pure _

theorem fieldsOf (h : sv.Regular U P) (s : Site) : P (sv.fieldsOf s) :=
  h.mapM h.fieldOf s.members

theorem alignmentOf (h : sv.Regular U P) (s : Site) : P (sv.alignmentOf s) :=
  h.andThen (h.fieldsOf s) fun fields => h.quiet (quiet_alignmentFor s fields)

theorem actualSizeOf (h : sv.Regular U P) (s : Site) : P (sv.actualSizeOf s) :=
  h.andThen (h.alignmentOf s) fun alignment => h.quiet (quiet_sizeFor s alignment)

theorem locationOf (h : sv.Regular U P) (hu : U u) (e : Entry) : P (locationOf u e) := by
  unfold Survey.locationOf
  apply h.reading (e.quiet_readInt .declFile)
  cases e.int? .declFile with
  | none => exact h.pure none
  | some number =>
    apply h.andThen (h.fileTable u hu)
    intro table
    apply h.spelling (spells_fileName table number)
    exact h.reading (e.quiet_readInt .declLine) (h.reading (e.quiet_readInt .declColumn) (h.pure _))

theorem skip (h : sv.Regular U P) (label : String) (s : Site) (reason : Skip) :
    P (skip label s reason) :=
  h.andThen (h.tell _ _ _) fun _ => h.andThen h.countSkipped fun _ => h.pure none

theorem recordOf (h : sv.Regular U P) (hu : U u) (s : Site) (unit : String) :
    P (sv.recordOf u s unit) := by
  unfold Survey.recordOf
  apply h.spelling s.spells_readQualifiedName
  split
  · exact h.pure none
  split
  · exact h.skip _ _ _
  apply h.andThen (h.fieldsOf s)
  intro fields
  split
  · exact h.skip _ _ _
  apply h.reading (quiet_alignmentFor s fields)
  apply h.reading (sv.quiet_layoutSkip s fields _)
  cases sv.plainSkip? s fields (plainAlignment s fields) with
  | some reason => exact h.skip _ _ _
  | none =>
    apply h.reading (quiet_sizeFor s _)
    exact h.andThen (h.locationOf hu s.toEntry) fun location => h.pure _

/-- What is true of all steps is true of the visit to an entry that can be read. -/
theorem recordAt (h : sv.Regular U P) (hu : U u) {visit : Visit}
    (hsound : ∀ message, visit ≠ .broken message) : P (sv.recordAt u visit) := by
  apply h.spelling u.spells_readName
  cases visit with
  | broken message => exact absurd rfl (hsound message)
  | gap => exact h.andThen h.countEntry fun _ => h.pure none
  | site s =>
    apply h.andThen h.countEntry
    intro _
    split
    · exact h.recordOf hu s _
    · exact h.pure none

/-- At a broken entry a visit fails, and what is true of failures too is true of all visits. -/
theorem recordAt_of_fail (h : sv.Regular U P)
    (hfail : ∀ e, P (fail e : Action Failure State (Option Record))) (hu : U u) (visit : Visit) :
    P (sv.recordAt u visit) := by
  by_cases hbroken : ∃ message, visit = .broken message
  · obtain ⟨message, rfl⟩ := hbroken
    exact h.spelling u.spells_readName (hfail _)
  · exact h.recordAt hu fun message hv => hbroken ⟨message, hv⟩

theorem records (h : sv.Regular U P)
    (hfold : P (sv.foldRecords (ι := Empty) (fun rs r => Pure.pure (.ok (rs ++ [r]))) [])) :
    P sv.records := by
  apply h.andThen hfold
  rintro (impossible | rs)
  · exact impossible.elim
  · exact h.pure rs

theorem firstRecords (h : sv.Regular U P) {limit : Nat}
    (hfold : P (sv.foldRecords (fun rs r => Pure.pure (stepUpTo limit rs r)) [])) :
    P (sv.firstRecords limit) := by
  unfold Survey.firstRecords
  split
  · exact h.pure []
  apply h.andThen hfold
  rintro (rs | rs) <;> exact h.pure rs

end Regular

/-- A step that fails for the limit on decimal text only, in a cache that is not overdrawn. -/
def Sturdy (x : Action Failure State α) : Prop :=
  ∀ sc, 0 ≤ sc.state.cache.capacity →
    Ends x sc (fun _ sc' => 0 ≤ sc'.state.cache.capacity ∧ sc'.limited = sc.limited)
      (fun e _ => e = .unwritable ∧ sc.limited = true)

namespace Sturdy

variable {x : Action Failure State α} {f : α → Action Failure State β}

theorem bind (hx : Sturdy x) (hf : ∀ a s t, x s = .ok a t → Sturdy (f a)) : Sturdy (x >>= f) := by
  intro sc hc
  refine (hx sc hc).bind_of_ok ?_
  rintro a t hxs ⟨hc', hl⟩
  rw [← hl]
  exact hf a sc t hxs t hc'

theorem spells {b : Bool} {a : α} (h : Spells x b a) : Sturdy x := by
  intro sc hc
  exact h.ends (fun _ _ _ => ⟨hc, rfl⟩) fun hlong _ _ => ⟨rfl, by simp_all⟩

theorem tell (e : Event) : Sturdy (Action.tell e) := by
  intro sc hc
  rw [ends_tell]
  split
  · exact ⟨hc, rfl⟩
  · simp_all

theorem update (g : Progress → Progress) : Sturdy (Progress.update g) :=
  fun _ hc => ⟨hc, rfl⟩

end Sturdy

theorem sturdy_resolve {r : Resolver} {s : Site} (hs : r.Holds s) :
    Sturdy (resolving (r.resolve (some s))) := by
  intro sc hc
  rw [resolving, ends_onPart]
  have hany : r.Assembles sc.limited r.Holds (fun _ _ => True) (fun _ _ => True) :=
    ⟨fun _ _ _ _ => trivial, fun _ _ _ _ => trivial, fun _ _ _ => trivial⟩
  refine (Resolver.ends_resolveWithin r.closed_holds hany Resolver.maxDepth [] hs hc rfl).imp ?_ ?_
  · intro l sc' h
    refine ⟨?_, h.continues.limited_eq⟩
    rw [h.continues.capacity_eq]
    exact hc
  · intro e sc' h
    exact ⟨h.unwritable, h.limited⟩

theorem sturdy_fileTable (u : CompilationUnit) : Sturdy (fileTable u) := by
  intro sc hc
  cases hf : sc.state.tables.lookup u.offset with
  | some table => exact Ends.of_ok (fileTable_of_known hf) ⟨hc, rfl⟩
  | none =>
    obtain ⟨es, -, hok⟩ := fileTable_of_unknown hf
    exact Ends.of_ok hok ⟨hc, rfl⟩

theorem regular_sturdy (sv : Survey) : sv.Regular (fun _ => True) Sturdy where
  bind := Sturdy.bind
  spells := Sturdy.spells
  tell _ _ _ := Sturdy.tell _
  countEntry := Sturdy.update _
  countSkipped := Sturdy.update _
  resolve _ hs := sturdy_resolve hs
  fileTable u _ := sturdy_fileTable u

end Survey

end PaddingAudit
