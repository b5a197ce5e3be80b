import PaddingAudit.Proofs.Repetition

/-!
# Invariants of a survey

A survey changes what it remembers in four ways only: it writes in its journal, it counts, it
resolves types, and it remembers the source files of one more unit. A property of scenes that
outlasts these four is an `Invariant`. It outlasts all requests then, those that fail too, and the
walk through all records, whatever is done with a record in between.
-/

namespace PaddingAudit.Survey

open Debug PaddingAudit.Action

variable {ι α β : Type} {sv : Survey} {U : CompilationUnit → Prop} {I : Scene State → Prop}
  {sc : Scene State}

/-- A step that keeps a property of scenes, also where it fails. -/
def Keeps (I : Scene State → Prop) (x : Action Failure State α) : Prop :=
  ∀ sc, I sc → Ends x sc (fun _ => I) (fun _ => I)

/-- A property of scenes that outlasts all that a survey does. `U` says which units the source files
may be of. A cut is for the resolution to tell of, and no other step has to allow for it. -/
structure Invariant (sv : Survey) (U : CompilationUnit → Prop) (I : Scene State → Prop) :
    Prop where
  note : ∀ sc es, (∀ e ∈ es, e.cutAt? = none) → I sc → I (sc.note es)
  counted : ∀ sc counts, I sc → I { sc with state := { sc.state with progress := counts } }
  resolve : ∀ s, sv.resolver.Holds s → Keeps I (resolving (sv.resolver.resolve (some s)))
  remember : ∀ u, U u → ∀ sc, I sc → I (remembering u sc)

namespace Invariant

theorem log {e : Event} (h : sv.Invariant U I) (he : e.cutAt? = none) (hsc : I sc) :
    I (sc.note [e]) :=
  h.note sc [e] (by simpa using he) hsc

theorem keeps_bind {x : Action Failure State α} {f : α → Action Failure State β} (hx : Keeps I x)
    (hf : ∀ a s t, x s = .ok a t → Keeps I (f a)) : Keeps I (x >>= f) := by
  intro sc hsc
  exact (hx sc hsc).bind_of_ok fun a t hxs ht => hf a sc t hxs t ht

theorem spells {x : Action Failure State α} {b : Bool} {a : α} (h : sv.Invariant U I)
    (hx : Spells x b a) : Keeps I x := by
  intro sc hsc
  have hnote : ∀ es : List Event, (∀ e ∈ es, e.isAside) → I (sc.note es) := fun es hes =>
    h.note sc es (fun e he => Event.cutAt?_of_isAside (hes e he)) hsc
  exact hx.ends (fun _ => hnote) fun _ => hnote

theorem quiet {x : Action Failure State α} {a : α} (h : sv.Invariant U I) (hx : Quiet x a) :
    Keeps I x :=
  h.spells hx.spells

theorem tell {e : Event} (h : sv.Invariant U I) (he : e.cutAt? = none) :
    Keeps I (Action.tell e) := by
  intro sc hsc
  rw [ends_tell]
  split
  · exact h.log he hsc
  · exact hsc

theorem update (h : sv.Invariant U I) (g : Progress → Progress) : Keeps I (Progress.update g) :=
  fun sc hsc => h.counted sc _ hsc

theorem fileTable {u : CompilationUnit} (h : sv.Invariant U I) (hu : U u) :
    Keeps I (fileTable u) := by
  intro sc hsc
  cases hf : sc.state.tables.lookup u.offset with
  | some table => exact Ends.of_ok (fileTable_of_known hf) hsc
  | none =>
    obtain ⟨es, hes, hok⟩ := fileTable_of_unknown hf
    exact Ends.of_ok hok (h.remember u hu _ (h.note sc es hes hsc))

theorem regular (h : sv.Invariant U I) : sv.Regular U (Keeps I) where
  bind := keeps_bind
  spells := h.spells
  tell _ _ _ := h.tell rfl
  countEntry := h.update _
  countSkipped := h.update _
  resolve := h.resolve
  fileTable _ hu := h.fileTable hu

/-- Whoever receives the records may do with them what keeps the invariant, too. -/
theorem foldRecords {step : β → Record → Action Failure State (Except ι β)}
    (h : sv.Invariant U I) (hunits : ∀ u ∈ sv.units, U u) (hstep : ∀ b r, Keeps I (step b r))
    (b : β) : Keeps I (sv.foldRecords step b) := by
  intro sc hsc
  refine ends_foldRecords (F := fun _ _ => True) (fun _ _ _ => h.log) (fun _ _ _ => h.log)
    ?_ ?_ ?_ (fun _ _ hsc _ => hsc) hsc
  · exact fun _ sc _ hsc => h.log rfl (h.counted sc _ hsc)
  · intro u hu visit _ b sc hsc
    have hvisit : Keeps I (sv.recordAt u visit) :=
      h.regular.recordAt_of_fail (fun _ _ hsc => hsc) (hunits u hu) visit
    exact (hvisit sc hsc).imp (fun _ _ hsc => ⟨hsc, fun _ _ => trivial⟩) fun _ _ => id
  · exact fun b r sc hsc _ => h.regular.andThen (h.update _) (fun _ => hstep b r) sc hsc

theorem records (h : sv.Invariant U I) (hunits : ∀ u ∈ sv.units, U u) : Keeps I sv.records :=
  h.regular.records (h.foldRecords hunits (fun _ _ => h.quiet (.pure _)) [])

theorem firstRecords (h : sv.Invariant U I) (hunits : ∀ u ∈ sv.units, U u) (limit : Nat) :
    Keeps I (sv.firstRecords limit) :=
  h.regular.firstRecords (h.foldRecords hunits (fun _ _ => h.quiet (.pure _)) [])

end Invariant

/-- A request about units of which `U` holds and types of the program. -/
def Request.Concerns (sv : Survey) (U : CompilationUnit → Prop) : Request → Prop
  | .resolve (some s) => sv.resolver.Holds s
  | .recordOf u _ _ => U u
  | _ => True

theorem Invariant.after {q : Request} (h : sv.Invariant U I) (hunits : ∀ u ∈ sv.units, U u)
    (hq : q.Concerns sv U) (hsc : I sc) : I (q.after sv sc) := by
  cases q with
  | records => exact (h.records hunits sc hsc).after
  | firstRecords limit => exact (h.firstRecords hunits limit sc hsc).after
  | fieldsOf s => exact (h.regular.fieldsOf s sc hsc).after
  | alignmentOf s => exact (h.regular.alignmentOf s sc hsc).after
  | actualSizeOf s => exact (h.regular.actualSizeOf s sc hsc).after
  | recordOf u s unit => exact (h.regular.recordOf hq s unit sc hsc).after
  | resolve target =>
    cases target with
    | none => exact Ends.after (h.quiet (quiet_resolving (.pure Layout.void)) sc hsc)
    | some s => exact (h.resolve s hq sc hsc).after
  | resolveMember member => exact (h.regular.resolveMember member sc hsc).after

theorem Invariant.afterAll {qs : List Request} (h : sv.Invariant U I)
    (hunits : ∀ u ∈ sv.units, U u) (hqs : ∀ q ∈ qs, q.Concerns sv U) (hsc : I sc) :
    I (sv.afterAll sc qs) :=
  afterAll_induction hsc fun q hq _ => h.after hunits (hqs q hq)

end PaddingAudit.Survey
