import PaddingAudit.Proofs.Derivation
import PaddingAudit.Proofs.Diagnosis
import PaddingAudit.Survey.Enumeration

/-!
# Records that a survey hands on

If no size that is stated is negative, no size that is worked out is. So far as the limit on decimal
text is lifted nothing fails on the way, and what is known of each record that is handed on is
enough for its diagnosis.
-/

namespace PaddingAudit

open Debug PaddingAudit.Action

namespace Resolver

variable {r : Resolver} {s : Site} {sc : Scene Cache}

/-- Neither the size of a word nor the size that is stated for a type is negative. -/
structure Sane (r : Resolver) : Prop where
  wordSize_nonneg : 0 ≤ r.platform.wordSize
  byteSize_nonneg : ∀ s ∈ r.sites, ∀ n, s.int? .byteSize = some n → 0 ≤ n

theorem Sane.getD_nonneg (h : r.Sane) (hs : s ∈ r.sites) {default : Int} (hd : 0 ≤ default) :
    0 ≤ (s.int? .byteSize).getD default := by
  cases hb : s.int? .byteSize with
  | none => exact hd
  | some n => exact h.byteSize_nonneg s hs n hb

theorem Sane.assemble_nonneg (h : r.Sane) (hs : s ∈ r.sites) {ls : List Layout}
    (hls : ∀ l ∈ ls, 0 ≤ l.size) : 0 ≤ (r.assemble s ls).size := by
  have hhead : 0 ≤ (ls.headD .void).size :=
    headD_of_forall (V := fun l => 0 ≤ l.size) (Int.le_refl 0) hls
  show 0 ≤ (r.derived s ls).size
  rcases r.derived_cases s ls with ⟨d, hd, heq⟩ | heq | heq | heq <;> rw [heq]
  · have hdefault : 0 ≤ d := by
      rcases hd with rfl | rfl
      · exact Int.le_refl 0
      · exact h.wordSize_nonneg
    exact h.getD_nonneg hs hdefault
  · exact hhead
  · exact h.getD_nonneg hs (Int.mul_nonneg hhead (plainCount_nonneg s))
  · exact h.getD_nonneg hs (Int.le_refl 0)

/-- A scene without the limit, in which no size that is kept is negative. -/
structure Sound (sc : Scene Cache) : Prop where
  capacity_nonneg : 0 ≤ sc.state.capacity
  limited_eq : sc.limited = false
  sizes : sc.state.Every fun _ l => 0 ≤ l.size

theorem sound_iff : Sound sc ↔ Stores (fun l => 0 ≤ l.size) false sc :=
  ⟨fun h => ⟨h.capacity_nonneg, h.limited_eq, h.sizes⟩,
    fun h => ⟨h.capacity_nonneg, h.limited_eq, h.every⟩⟩

theorem Sound.note (h : Sound sc) (es : List Event) : Sound (sc.note es) :=
  ⟨h.capacity_nonneg, h.limited_eq, h.sizes⟩

theorem ignoresAsides_sound : IgnoresAsides Sound :=
  fun _ es _ h => h.note es

/-- Without the limit a resolution gives a layout whose size is not negative. -/
theorem Sane.ends_resolveWithin (hr : r.Sane) (depth : Nat) (pending : List Int) (hs : r.Holds s)
    (h : Sound sc) :
    Ends (r.resolveWithin depth pending s) sc (fun l sc' => Sound sc' ∧ 0 ≤ l.size)
      (fun _ _ => False) := by
  have hmem : s ∈ r.sites := List.mem_of_find?_eq_some hs
  have hassemble : ∀ s ∈ r.sites, ∀ ls : List Layout, (∀ l ∈ ls, 0 ≤ l.size) →
      0 ≤ (r.assemble s ls).size := fun s hs ls => hr.assemble_nonneg hs
  refine (ends_resolveWithin_every (Int.le_refl 0) hassemble depth pending hmem
    (sound_iff.1 h)).imp ?_ ?_
  · intro l sc' hl
    exact ⟨sound_iff.2 hl.1, hl.2⟩
  · intro e sc' he
    simp at he

theorem Sane.ends_resolveMember (hr : r.Sane) (member : Entry) (h : Sound sc) :
    Ends (r.resolveMember member) sc (fun l sc' => Sound sc' ∧ 0 ≤ l.size) (fun _ _ => False) := by
  refine (member.quiet_followType r.sites).ends_bind ignoresAsides_sound h fun sc h => ?_
  have hresolve : Ends (r.resolve (member.target? r.sites)) sc
      (fun l sc' => Sound sc' ∧ 0 ≤ l.size) (fun _ _ => False) := by
    cases ht : member.target? r.sites with
    | none => exact ⟨h, Int.le_refl 0⟩
    | some s => exact hr.ends_resolveWithin maxDepth [] (holds_of_target ht) h
  refine hresolve.bind fun l sc' ⟨hsc, hl⟩ => ?_
  refine member.quiet_readAlignment.ends_bind ignoresAsides_sound hsc fun sc'' hsc => ?_
  cases member.explicitAlignment? <;> exact ⟨hsc, hl⟩

end Resolver

namespace Survey

variable {α β : Type} {x : Action Failure State α} {f : α → Action Failure State β} {P : α → Prop}
  {Q : β → Prop}

/-- A scene of a survey without the limit, in whose cache no size is negative. -/
def Sound (sc : Scene State) : Prop :=
  Resolver.Sound { sc with state := sc.state.cache }

/-- A step that does not fail in a sound scene, leaves a sound one behind, and has a result of which
`P` holds. -/
def Safe (x : Action Failure State α) (P : α → Prop) : Prop :=
  ∀ sc, Sound sc → Ends x sc (fun a sc' => Sound sc' ∧ P a) (fun _ _ => False)

namespace Safe

theorem pure {a : α} (h : P a) : Safe (pure a) P :=
  fun _ hsc => ⟨hsc, h⟩

theorem bind (hx : Safe x P) (hf : ∀ a, P a → Safe (f a) Q) : Safe (x >>= f) Q :=
  fun sc hsc => (hx sc hsc).bind fun a sc' h => hf a h.2 sc' h.1

theorem imp {P' : α → Prop} (hx : Safe x P) (h : ∀ a, P a → P' a) : Safe x P' :=
  fun sc hsc => (hx sc hsc).imp (fun a _ h' => ⟨h'.1, h a h'.2⟩) fun _ _ he => he

theorem quiet {a : α} (hx : Quiet x a) (h : P a) : Safe x P :=
  fun _ hsc => hx.ends fun es _ => ⟨hsc.note es, h⟩

theorem spells {a : α} {b : Bool} (hx : Spells x b a) (h : P a) : Safe x P := by
  intro sc hsc
  have hlifted : sc.limited = false := hsc.limited_eq
  exact hx.ends (fun _ es _ => ⟨hsc.note es, h⟩) fun hb => by simp [hlifted] at hb

theorem log (ev : Event) : Safe (log ev) fun _ => True :=
  fun _ hsc => (ends_log ev).2 ⟨hsc.note [ev], trivial⟩

theorem tell (ev : Event) : Safe (tell ev) fun _ => True := by
  intro sc hsc
  rw [ends_tell, if_pos (by simp [show sc.limited = false from hsc.limited_eq])]
  exact ⟨hsc.note [ev], trivial⟩

theorem state : Safe state fun _ => True :=
  fun _ hsc => ⟨hsc, trivial⟩

theorem modifyState {g : State → State} (hg : ∀ st, (g st).cache = st.cache) :
    Safe (modifyState g) fun _ => True := by
  intro sc hsc
  refine ⟨?_, trivial⟩
  show Resolver.Sound { sc with state := (g sc.state).cache }
  rw [hg]
  exact hsc

theorem mapM {step : α → Action Failure State β} {l : List α}
    (h : ∀ a ∈ l, Safe (step a) Q) :
    Safe (l.mapM step) fun bs => bs.length = l.length ∧ ∀ b ∈ bs, Q b := by
  induction l with
  | nil => exact pure ⟨rfl, by simp⟩
  | cons a l ih =>
    rw [List.mapM_cons]
    refine (h a (by simp)).bind fun b hb =>
      (ih fun a ha => h a (by simp [ha])).bind fun bs hbs => ?_
    refine pure ⟨by simp [hbs.1], fun c hc => ?_⟩
    rcases List.mem_cons.1 hc with rfl | hc
    · exact hb
    · exact hbs.2 c hc

end Safe

theorem safe_current : Safe Progress.current fun _ => True :=
  Safe.state.bind fun _ _ => .pure trivial

theorem safe_update (g : Progress → Progress) : Safe (Progress.update g) fun _ => True :=
  .modifyState fun _ => rfl

/-- Work on a unit is as safe as the work. -/
theorem Safe.trackUnit {work : Action Failure State (Except α β)} {P : Except α β → Prop}
    (h : Safe work P) (offset : Int) : Safe (Progress.trackUnit offset work) P := by
  refine safe_current.bind fun before _ => (safe_update _).bind fun _ _ => ?_
  refine (Safe.log _).bind fun _ _ => ?_
  have hwork : Safe (work.logFailure fun e => some (.unitFailed (before.units + 1) e.message)) P :=
    fun sc hsc => (ends_logFailure _).2 (h sc hsc)
  refine hwork.bind fun result hP => ?_
  cases result with
  | error e => exact .pure hP
  | ok b => exact safe_current.bind fun _ _ => (Safe.log _).bind fun _ _ => .pure hP

/-! ### Admission -/

variable {ε σ : Type} {sv : Survey} {s : Site} {u : CompilationUnit} {unit : String} {r : Record}

/-- The size a record is given, or zero. -/
def plainSize (s : Site) : Int :=
  (s.int? .byteSize).getD 0

theorem quiet_statedSize (s : Site) : Quiet (statedSize s : Action ε σ Int) (plainSize s) :=
  (s.quiet_readInt .byteSize).bind (.pure _)

theorem quiet_sizeFor (s : Site) (alignment : Int) :
    Quiet (sizeFor s alignment : Action ε σ Int) (roundUp (plainSize s) alignment) :=
  (quiet_statedSize s).bind (.pure _)

/-- The alignment the program asks for, or else the largest among the members. -/
def plainAlignment (s : Site) (fields : List Field) : Int :=
  s.explicitAlignment?.getD ((fields.map Field.alignment).max?.getD 1)

theorem quiet_alignmentFor (s : Site) (fields : List Field) :
    Quiet (alignmentFor s fields : Action ε σ Int) (plainAlignment s fields) :=
  s.quiet_readAlignment.bind (.pure _)

/-- What a data member is called, however long the number is that its name has in it. -/
def plainMemberName (member : Entry) : String :=
  member.name?.getD
    ("(anonymous@" ++ Text.decimal ((member.int? .dataMemberLocation).getD 0) ++ ")")

def memberNameIsWritable (member : Entry) : Bool :=
  if member.name?.isSome then member.nameIsWritable
  else Text.isWritable ((member.int? .dataMemberLocation).getD 0)

theorem spells_memberName (member : Entry) :
    Spells (memberName member : Action Failure σ String) (memberNameIsWritable member)
      (plainMemberName member) := by
  unfold memberName memberNameIsWritable plainMemberName
  have hread := member.spells_readName (σ := σ)
  cases hname : member.name? with
  | some name =>
    rw [hname] at hread
    exact hread.bind_pure rfl
  | none =>
    rw [hname, Entry.nameIsWritable_of_name?_eq_none hname] at hread
    exact .quiet_bind hread.quiet (.quiet_bind (member.quiet_readInt _) (.write _ _))

/-- The file of a number, or else the number itself, however long it is. -/
def plainFileName (table : FileTable) (number : Int) : String :=
  (table.file? number).getD (FileTable.placeholder number)

/-- Whether there is a file of a number, or the number can be written. -/
def fileNameIsWritable (table : FileTable) (number : Int) : Bool :=
  (table.file? number).isSome || Text.isWritable number

theorem spells_fileName (table : FileTable) (number : Int) :
    Spells (fileName table number : Action Failure σ String) (fileNameIsWritable table number)
      (plainFileName table number) := by
  unfold fileName fileNameIsWritable plainFileName
  cases table.file? number with
  | some file =>
    simp only [Option.isSome_some, Bool.true_or, Option.getD_some]
    exact (Quiet.pure file).spells
  | none =>
    simp only [Option.isSome_none, Bool.false_or, Option.getD_none]
    exact .write _ _

/-- The extent of a member, unless it is empty or its place is not known. -/
def plainExtent? (member : Entry) (field : Field) : Option Extent :=
  (member.int? .dataMemberLocation).bind fun start =>
    if 0 < field.size then some { start := start, stop := start + field.size } else none

theorem quiet_extentOf (member : Entry) (field : Field) :
    Quiet (extentOf member field : Action ε σ (Option Extent)) (plainExtent? member field) := by
  refine (member.quiet_readInt .dataMemberLocation).bind ?_
  unfold plainExtent?
  cases member.int? .dataMemberLocation <;> exact .pure _

/-- The extents of the members of a record, as far as they have one. -/
def plainExtents (s : Site) (fields : List Field) : List Extent :=
  (s.members.zip fields).filterMap fun p => plainExtent? p.1 p.2

def plainOverlap (s : Site) (fields : List Field) : Bool :=
  decide (plainSize s < total (fields.map Field.size)) || Extent.overlap (plainExtents s fields)

theorem quiet_hasOverlap (s : Site) (fields : List Field) :
    Quiet (hasOverlap s fields : Action ε σ Bool) (plainOverlap s fields) := by
  refine (quiet_statedSize s).bind ?_
  by_cases hlt : plainSize s < total (fields.map Field.size)
  · simp only [plainOverlap, hlt, decide_true, Bool.true_or, if_true]
    exact .pure true
  · have hextents := Quiet.mapM (ε := ε) (σ := σ) (fun p : Entry × Field => quiet_extentOf p.1 p.2)
      (s.members.zip fields)
    have hall : plainExtents s fields =
        ((s.members.zip fields).map fun p => plainExtent? p.1 p.2).filterMap id := by
      rw [List.filterMap_map]
      rfl
    simp only [plainOverlap, hlt, decide_false, Bool.false_or, if_false, hall]
    exact hextents.bind (.pure _)

/-- Members without overlap have sizes that add up to no more than the size of the record. -/
theorem total_le_of_plainOverlap {fields : List Field} (h : plainOverlap s fields = false) :
    total (fields.map Field.size) ≤ plainSize s := by
  rw [plainOverlap, Bool.or_eq_false_iff, decide_eq_false_iff_not] at h
  omega

/-- The reason to skip a record for its layout. -/
def plainSkip? (sv : Survey) (s : Site) (fields : List Field) (alignment : Int) : Option Skip :=
  if sv.platform.maxAlign < alignment then some (.overAligned alignment sv.platform.maxAlign)
  else if plainOverlap s fields then some .overlapping
  else none

theorem quiet_layoutSkip (sv : Survey) (s : Site) (fields : List Field) (alignment : Int) :
    Quiet (sv.layoutSkip s fields alignment) (sv.plainSkip? s fields alignment) := by
  unfold layoutSkip plainSkip?
  split
  · exact .pure _
  · refine (quiet_hasOverlap s fields).bind ?_
    split <;> exact .pure _

theorem plainSkip?_eq_none_iff {fields : List Field} {alignment : Int} :
    sv.plainSkip? s fields alignment = none ↔
      alignment ≤ sv.platform.maxAlign ∧ plainOverlap s fields = false := by
  unfold plainSkip?
  split
  · simp only [reduceCtorEq, false_iff, not_and]
    omega
  · split <;> simp_all

/-- A record that a survey hands on for a site, and what is checked before. -/
structure Admits (sv : Survey) (s : Site) (unit : String) (r : Record) : Prop where
  name_eq : r.name = recordName s
  unit_eq : r.unit = unit
  length_eq : r.fields.length = s.members.length
  alignment_eq : r.alignment = plainAlignment s r.fields
  actualSize_eq : r.actualSize = roundUp (plainSize s) r.alignment
  size_nonneg : ∀ field ∈ r.fields, 0 ≤ field.size
  alignment_le : r.alignment ≤ sv.platform.maxAlign
  total_le : total (r.fields.map Field.size) ≤ plainSize s

theorem safe_fieldsOf (hr : sv.resolver.Sane) (s : Site) :
    Safe (sv.fieldsOf s) fun fields =>
      fields.length = s.members.length ∧ ∀ field ∈ fields, 0 ≤ field.size := by
  refine Safe.mapM fun member _ => ?_
  have hlayout : Safe (resolving (sv.resolver.resolveMember member)) fun l => 0 ≤ l.size :=
    fun sc hsc => (ends_onPart _ _).2 (hr.ends_resolveMember member hsc)
  exact hlayout.bind fun l hl =>
    Safe.bind (P := fun _ => True) (.spells (spells_memberName member) trivial) fun _ _ => .pure hl

theorem safe_skip (label : String) (s : Site) (reason : Skip) :
    Safe (skip label s reason) (· = none) :=
  (Safe.tell _).bind fun _ _ => (safe_update _).bind fun _ _ => .pure rfl

theorem safe_locationOf (u : CompilationUnit) (e : Entry) :
    Safe (locationOf u e) fun _ => True := by
  have htable : Safe (fileTable u) fun _ => True := by
    refine Safe.state.bind fun st _ => ?_
    split
    · exact .pure trivial
    · split
      · exact (Safe.log _).bind fun _ _ =>
          Safe.bind (.modifyState fun _ => rfl) fun _ _ => .pure trivial
      · exact Safe.bind (.modifyState fun _ => rfl) fun _ _ => .pure trivial
  have hread : ∀ key, Safe (e.readInt key) fun _ => True := fun key =>
    .quiet (e.quiet_readInt key) trivial
  refine (hread _).bind fun number _ => ?_
  cases number with
  | none => exact .pure trivial
  | some n =>
    refine htable.bind fun table _ =>
      Safe.bind (P := fun _ => True) (.spells (spells_fileName table n) trivial) fun _ _ => ?_
    exact (hread _).bind fun _ _ => (hread _).bind fun _ _ => .pure trivial

/-- Without the limit nothing fails when a survey looks at a record. -/
theorem safe_recordOf (hr : sv.resolver.Sane) (u : CompilationUnit) (s : Site) (unit : String) :
    Safe (sv.recordOf u s unit) fun r? => ∀ r, r? = some r → sv.Admits s unit r := by
  have hskip : ∀ label reason,
      Safe (skip label s reason) fun r? => ∀ r, r? = some r → sv.Admits s unit r := by
    intro label reason
    refine (safe_skip label s reason).imp ?_
    rintro _ rfl r hr
    cases hr
  unfold recordOf
  refine Safe.bind (P := fun _ => True) (.spells s.spells_readQualifiedName trivial) fun _ _ => ?_
  split
  · exact .pure (by simp)
  split
  · exact hskip _ _
  refine (safe_fieldsOf hr s).bind fun fields hfields => ?_
  split
  · exact hskip _ _
  refine (Safe.quiet (quiet_alignmentFor s fields) (P := (· = _)) rfl).bind ?_
  rintro alignment rfl
  refine (Safe.quiet (sv.quiet_layoutSkip s fields _) (P := (· = _)) rfl).bind ?_
  rintro _ rfl
  cases hskip? : sv.plainSkip? s fields (plainAlignment s fields) with
  | some reason => exact hskip _ _
  | none =>
    refine (Safe.quiet (quiet_sizeFor s _) (P := (· = _)) rfl).bind ?_
    rintro _ rfl
    refine (safe_locationOf u s.toEntry).bind fun location _ => .pure ?_
    obtain ⟨hle, hoverlap⟩ := plainSkip?_eq_none_iff.1 hskip?
    rintro r ⟨⟩
    exact ⟨rfl, rfl, hfields.1, rfl, rfl, hfields.2, hle, total_le_of_plainOverlap hoverlap⟩

end Survey

end PaddingAudit
