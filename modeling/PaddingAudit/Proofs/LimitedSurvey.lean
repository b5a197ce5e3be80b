import PaddingAudit.Proofs.Admission
import PaddingAudit.Proofs.Limit

/-!
# Surveys under the limit

Every step of a resolution and of a survey is orderly: under the limit on decimal text it does what
it would do without, or else fails. Readings are quiet, and so need no proof of their own.
-/

namespace PaddingAudit

variable {σ α β : Type} {legible : Prop}

open Debug PaddingAudit.Action

namespace Resolver

section Derived

variable {r : Resolver} {visit : Site → Action Failure Cache Layout}

theorem tells_targetLayout (hv : ∀ s, Tells legible (visit s)) (e : Entry) :
    Tells legible (r.targetLayout visit e) := by
  refine Tells.bind (e.quiet_followType r.sites).orderly fun target => ?_
  cases target with
  | none => exact orderly_pure _
  | some s => exact hv s

theorem tells_arrayLayout (hv : ∀ s, Tells legible (visit s)) (s : Site) (byteSize : Option Int) :
    Tells legible (r.arrayLayout visit s byteSize) := by
  refine (tells_targetLayout hv s.toEntry).bind fun element => ?_
  refine Tells.bind (quiet_elementCount s).orderly fun count => ?_
  dsimp only
  split <;> exact orderly_pure _

theorem tells_widen (hv : ∀ s, Tells legible (visit s)) (alignment : Int) (child : Entry) :
    Tells legible (r.widen visit alignment child) := by
  unfold widen
  split
  · refine Tells.bind (child.quiet_followType r.sites).orderly fun target => ?_
    cases target with
    | none => exact orderly_pure _
    | some s => exact (hv s).bind fun _ => Tells.bind child.quiet_readAlignment.orderly fun _ =>
      orderly_pure _
  · exact orderly_pure _

theorem tells_derive (hv : ∀ s, Tells legible (visit s)) (s : Site) :
    Tells legible (r.derive visit s) := by
  refine Tells.bind (s.quiet_readInt .byteSize).orderly fun byteSize => ?_
  split
  · split
    · exact orderly_pure _
    · exact tells_targetLayout hv s.toEntry
  · exact orderly_pure _
  · exact tells_targetLayout hv s.toEntry
  · exact tells_arrayLayout hv s byteSize
  · exact (Tells.foldlM (tells_widen hv) _ _).bind fun _ => orderly_pure _
  · exact (tells_log rfl).bind fun _ => orderly_pure _

theorem tells_keep (offset : Int) (layout : Layout) : Tells legible (keep offset layout) := by
  refine (tells_modifyState _).bind fun _ => tells_state.bind fun cache => ?_
  split
  · exact orderly_fail _
  · exact orderly_pure _

theorem tells_compute (hv : ∀ s, Tells legible (visit s)) (s : Site) :
    Tells legible (r.compute visit s) :=
  (tells_derive hv s).bind fun _ => Tells.bind s.quiet_readAlignment.orderly fun _ =>
    (tells_keep _ _).bind fun _ => (tells_tell _).bind fun _ => orderly_pure _

end Derived

theorem tells_resolveUnless {pending : List Int} {s : Site} {compute : Action Failure Cache Layout}
    (hc : Tells legible compute) : Tells legible (resolveUnless pending s compute) := by
  have hcache : Tells legible (fromCache s.offset) :=
    orderly_of_step (g := fun c => c.get s.offset) fun _ => rfl
  refine hcache.bind fun found => ?_
  cases found with
  | some layout => exact orderly_pure _
  | none =>
    dsimp only
    split
    · exact (tells_log rfl).bind fun _ => orderly_pure _
    · exact hc

theorem tells_resolveWithin (r : Resolver) (depth : Nat) (pending : List Int) (s : Site) :
    Tells legible (r.resolveWithin depth pending s) := by
  induction depth generalizing pending s with
  | zero => exact tells_resolveUnless ((tells_log rfl).bind fun _ => orderly_pure _)
  | succ depth ih => exact tells_resolveUnless (tells_compute (ih _) s)

theorem tells_resolveMember (r : Resolver) (member : Entry) :
    Tells legible (r.resolveMember member) := by
  refine Tells.bind (member.quiet_followType r.sites).orderly fun target => ?_
  have hresolve : Tells legible (r.resolve target) := by
    cases target with
    | none => exact orderly_pure _
    | some s => exact tells_resolveWithin r maxDepth [] s
  refine hresolve.bind fun layout => Tells.bind member.quiet_readAlignment.orderly
    fun explicit => ?_
  cases explicit <;> exact orderly_pure _

end Resolver

/-! ### Surveys -/

namespace Progress

variable [HasProgress σ]

theorem tells_current : Tells legible (current : Action Failure σ Progress) :=
  tells_state.bind fun _ => orderly_pure _

theorem tells_update (g : Progress → Progress) : Tells legible (update g : Action Failure σ Unit) :=
  tells_modifyState _

/-- Work on a unit that can be interrupted ends as the work does. -/
theorem passes_trackUnit {work : Action Failure σ (Except Failure β)} (hw : Passes legible work)
    (offset : Int) : Passes legible (trackUnit offset work) := by
  refine tells_current.bind fun before => (tells_update _).bind fun _ => ?_
  refine (tells_log rfl).bind fun _ => Passes.bind (hw.logFailure _) (fun _ => rfl) fun _ => ?_
  exact tells_current.bind fun _ => (tells_log rfl).bind fun _ => orderly_pure _

theorem tells_summarise : Tells legible (summarise : Action Failure σ Unit) :=
  tells_current.bind fun _ => tells_log rfl

end Progress

/-- A diagnosis that gives a finding is interrupted exactly if the finding cannot be told. -/
theorem Tally.passes_diagnose (cap : Int) (t : Tally) (r : Record) :
    Passes legible (t.diagnose cap r : Action Failure σ (Except Failure Tally)) := by
  unfold Tally.diagnose
  split
  · -- A record that breaks the contract gives no whole result.
    intro s a u ha hwhole
    obtain ⟨b, v, -, hret⟩ := of_bind_ok ha
    cases hret
    obtain ⟨t, ht⟩ := hwhole
    cases ht
  · exact orderly_pure _
  · exact orderly_permits (fun s => bind_ok (log_apply _ s) _) fun _ => rfl

theorem Tally.orderly_close {x : Action Failure σ (Except Failure Tally)} (hx : Passes legible x) :
    Tells legible (x >>= Tally.close) := by
  refine Orderly.bind hx ?_ ?_ ?_
  · rintro _ ⟨t, rfl⟩
    exact (tells_log rfl).bind fun _ => orderly_pure _
  · rintro (e | t) s fs u hu -
    · cases hu
    · exact ⟨t, rfl⟩
  · rintro _ s rfl
    rfl

namespace Survey

variable (sv : Survey)

/-- A record definition in whose texts no number is too long: its qualified name, the names of its
members, and the number of its file. -/
structure Legible (s : Site) : Prop where
  name : s.qualifiedNameIsWritable
  members : ∀ member ∈ s.members, memberNameIsWritable member
  file : ∀ number, s.int? .declFile = some number → Text.isWritable number

theorem tells_fieldOf {member : Entry} (h : legible → memberNameIsWritable member) :
    Tells legible (sv.fieldOf member) :=
  Tells.bind ((sv.resolver.tells_resolveMember member).onPart _ _) fun _ =>
    Tells.bind ((spells_memberName member).orderly h) fun _ => orderly_pure _

theorem tells_fileTable (u : CompilationUnit) : Tells legible (fileTable u) := by
  refine tells_state.bind fun state => ?_
  split
  · exact orderly_pure _
  · split
    · exact (tells_log rfl).bind fun _ => (tells_modifyState _).bind fun _ => orderly_pure _
    · exact (tells_modifyState _).bind fun _ => orderly_pure _

theorem tells_locationOf (u : CompilationUnit) {e : Entry}
    (h : legible → ∀ number, e.int? .declFile = some number → Text.isWritable number) :
    Tells legible (locationOf u e) := by
  have hread : ∀ key, Tells legible (e.readInt key : Action Failure State _) := fun key =>
    (e.quiet_readInt key).orderly
  refine Tells.bind_of_quiet (e.quiet_readInt .declFile) ?_
  cases hfile : e.int? .declFile with
  | none => exact orderly_pure _
  | some number =>
    refine (tells_fileTable u).bind fun table => ?_
    have hname : legible → fileNameIsWritable table number := fun hlegible => by
      rw [fileNameIsWritable, h hlegible number hfile, Bool.or_true]
    refine Tells.bind ((spells_fileName table number).orderly hname) fun _ => ?_
    exact (hread _).bind fun _ => (hread _).bind fun _ => orderly_pure _

theorem tells_skip (label : String) (s : Site) (reason : Skip) :
    Tells legible (skip label s reason) :=
  (tells_tell _).bind fun _ => (Progress.tells_update _).bind fun _ => orderly_pure _

theorem tells_recordOf (u : CompilationUnit) {s : Site} (h : legible → Legible s) (unit : String) :
    Tells legible (sv.recordOf u s unit) := by
  unfold recordOf
  refine Tells.bind (s.spells_readQualifiedName.orderly fun hs => (h hs).name) fun _ => ?_
  split
  · exact orderly_pure _
  split
  · exact tells_skip _ _ _
  have hmembers : ∀ member ∈ s.members, Tells legible (sv.fieldOf member) :=
    fun member hmem => sv.tells_fieldOf fun hs => (h hs).members member hmem
  refine (Tells.mapM hmembers).bind fun fields => ?_
  split
  · exact tells_skip _ _ _
  refine Tells.bind (quiet_alignmentFor s fields).orderly fun alignment => ?_
  refine Tells.bind (sv.quiet_layoutSkip s fields alignment).orderly fun reason? => ?_
  cases reason? with
  | some reason => exact tells_skip _ _ _
  | none =>
    exact Tells.bind (quiet_sizeFor s alignment).orderly fun _ =>
      (tells_locationOf u fun hs => (h hs).file).bind fun _ => orderly_pure _

/-- A visit at which no text has a number that is too long. -/
structure LegibleVisit (u : CompilationUnit) (visit : Visit) : Prop where
  unit : u.top.nameIsWritable
  record : ∀ s, visit = .site s → s.tagged Tag.isRecord → Legible s

theorem tells_recordAt {u : CompilationUnit} {visit : Visit} (h : legible → LegibleVisit u visit) :
    Tells legible (sv.recordAt u visit) := by
  refine Tells.bind (u.spells_readName.orderly fun hs => (h hs).unit) fun unit => ?_
  cases visit with
  | broken message => exact orderly_fail _
  | gap => exact (Progress.tells_update _).bind fun _ => orderly_pure _
  | site s =>
    refine (Progress.tells_update _).bind fun _ => ?_
    split
    · rename_i hrecord
      exact sv.tells_recordOf u (fun hs => (h hs).record s rfl hrecord) unit
    · exact orderly_pure _

section Fold

variable {step : β → Record → Action Failure State (Except Failure β)} {sv}

theorem passes_foldVisits (hstep : ∀ b r, Passes legible (step b r)) {u : CompilationUnit}
    {visits : List Visit} (h : ∀ visit ∈ visits, legible → LegibleVisit u visit)
    (seen : List Identity) (b : β) : Passes legible (sv.foldVisits step u visits seen b) := by
  induction visits generalizing seen b with
  | nil => exact orderly_pure _
  | cons visit visits ih =>
    obtain ⟨hvisit, hvisits⟩ := List.forall_mem_cons.1 h
    refine (sv.tells_recordAt hvisit).bind fun record? => ?_
    cases record? with
    | none => exact ih hvisits seen b
    | some r =>
      dsimp only
      split
      · exact ih hvisits seen b
      · exact (Progress.tells_update _).bind fun _ =>
          Passes.bind (hstep b r) (fun _ => rfl) fun next => ih hvisits _ next

theorem passes_foldUnits (hstep : ∀ b r, Passes legible (step b r)) {us : List CompilationUnit}
    (h : ∀ u ∈ us, ∀ visit ∈ u.visits, legible → LegibleVisit u visit) (seen : List Identity)
    (b : β) : Passes legible (sv.foldUnits step us seen b) := by
  induction us generalizing seen b with
  | nil => exact orderly_pure _
  | cons u us ih =>
    obtain ⟨hu, hus⟩ := List.forall_mem_cons.1 h
    exact Passes.bind (Progress.passes_trackUnit (passes_foldVisits hstep hu seen b) _)
      (fun _ => rfl) fun next => ih hus _ _

theorem tells_closeWalk : Tells legible closeWalk :=
  Progress.tells_summarise.bind fun _ => tells_state.bind fun _ => tells_tell _

theorem passes_foldRecords (hstep : ∀ b r, Passes legible (step b r))
    (h : ∀ u ∈ sv.units, ∀ visit ∈ u.visits, legible → LegibleVisit u visit) (b : β) :
    Passes legible (sv.foldRecords step b) :=
  Passes.bind (passes_foldUnits hstep h [] b) (fun _ => rfl) fun _ =>
    tells_closeWalk.bind fun _ => orderly_pure _

end Fold

/-- No text of a survey has a number that is too long. -/
def AllLegible : Prop :=
  ∀ u ∈ sv.units, ∀ visit ∈ u.visits, LegibleVisit u visit

/-- Under the limit a survey gives its findings, or else fails because it has something to write
that cannot be written: in an event, or in another text. -/
theorem tells_findings : Tells sv.AllLegible sv.findings := by
  have hvisits : ∀ u ∈ sv.units, ∀ visit ∈ u.visits, sv.AllLegible → LegibleVisit u visit :=
    fun u hu visit hvisit h => h u hu visit hvisit
  have hwork := Tally.orderly_close
    (passes_foldRecords (Tally.passes_diagnose sv.platform.maxAlign) hvisits {})
  exact (tells_log rfl).bind fun _ => Tells.bind (hwork.logFailure _) fun _ =>
    (tells_log rfl).bind fun _ => orderly_pure _

end Survey

end PaddingAudit
