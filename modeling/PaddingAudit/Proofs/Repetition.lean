import Mathlib.Data.List.Dedup
import PaddingAudit.Proofs.Contract
import PaddingAudit.Proofs.History
import PaddingAudit.Proofs.Survey

/-!
# Asking again

A survey can be asked about single records, about types and about all records, in any order, and it
remembers layouts and file tables from one request to the next. If its cache has room for all types,
nothing that it remembers is ever replaced. So what it gave once it gives again, whatever was asked
in between: this holds also where chains of references are cut off, and where requests failed.
-/

namespace PaddingAudit

open Debug PaddingAudit.Action

variable {α β : Type} {room : List Int}

namespace Resolver

variable {r : Resolver} {s : Site} {sc : Scene Cache}

/-- In a cache with room, a type that was asked for is known from then on. -/
theorem ends_resolve_known (hroom : ∀ t, r.Depends s t → t.offset ∈ room)
    (hsc : sc.state.Roomy room) :
    Ends (r.resolve (some s)) sc
      (fun l sc' => Grows room sc sc' ∧ sc'.state.find? s.offset = some l)
      (fun _ => Grows room sc) := by
  show Ends (r.resolveWithin (63 + 1) [] s) sc _ _
  refine ends_resolveUnless ?_ (fun _ hp => absurd hp List.not_mem_nil) fun hf _ => ?_
  · intro l hl
    exact ⟨.asked hsc s.offset, (Cache.find?_get _ _ _).trans hl⟩
  refine ends_compute (I := fun _ _ => Grows room sc) (fun _ _ _ es _ h => h.note es)
    (.asked hsc s.offset) ?_ (fun _ _ h => h.capacity_nonneg) ?_
  · intro done t rest hfollowed ls sc' h
    have ht : t ∈ r.followed s := by simp [hfollowed]
    have hgrows :=
      ends_resolveWithin_grows 63 [s.offset] (fun u hu => hroom u (.step ht hu)) h.roomy
    exact hgrows.imp (fun _ _ => h.trans) (fun _ _ => h.trans)
  · intro ls sc' h
    have hstored := h.put (hroom s .refl) hf (r.assemble s ls)
    dsimp only
    split
    · refine ⟨hstored.note _, ?_⟩
      rw [Scene.state_note, h.roomy.find?_put (hroom s .refl), if_pos rfl]
    · exact hstored

end Resolver

namespace Survey

/-- A scene that comes after another one, in which nothing is forgotten. -/
structure Later (room : List Int) (sc sc' : Scene State) : Prop
    extends Resolver.Grows room (layouts sc) (layouts sc') where
  tables : ∀ offset table, sc.state.tables.lookup offset = some table →
    sc'.state.tables.lookup offset = some table

namespace Later

variable {sc sc' sc'' : Scene State}

theorem refl (h : (layouts sc).state.Roomy room) : Later room sc sc :=
  ⟨.refl h, fun _ _ => id⟩

theorem trans (h : Later room sc sc') (h' : Later room sc' sc'') : Later room sc sc'' :=
  ⟨h.toGrows.trans h'.toGrows, fun o t ht => h'.tables o t (h.tables o t ht)⟩

theorem note (h : Later room sc sc') (es : List Event) : Later room sc (sc'.note es) :=
  ⟨h.toGrows.note es, h.tables⟩

theorem counted (h : (layouts sc).state.Roomy room) (counts : Progress) :
    Later room sc { sc with state := { sc.state with progress := counts } } :=
  ⟨.refl h, fun _ _ => id⟩

theorem entered (h : (layouts sc).state.Roomy room) (offset : Int) :
    Later room sc (entered sc offset) :=
  (counted h _).note _

end Later

/-! ### Repeatable steps -/

/-- A step that forgets nothing, and gives its value again in every later scene. -/
def Repeatable (room : List Int) (x : Action Failure State α) : Prop :=
  ∀ sc, (layouts sc).state.Roomy room →
    Ends x sc
      (fun a sc' => Later room sc sc' ∧ ∀ later, Later room sc' later → ∃ t, x later = .ok a t)
      (fun _ => Later room sc)

namespace Repeatable

variable {x : Action Failure State α} {f : α → Action Failure State β} {sc sc' later : Scene State}

theorem bind (hx : Repeatable room x) (hf : ∀ a s t, x s = .ok a t → Repeatable room (f a)) :
    Repeatable room (x >>= f) := by
  intro sc hsc
  refine (hx sc hsc).bind_of_ok ?_
  rintro a t hxs ⟨hat, hagain⟩
  refine (hf a sc t hxs t hat.roomy).imp ?_ fun _ _ => hat.trans
  rintro b u ⟨hbu, hbagain⟩
  refine ⟨hat.trans hbu, fun later hlater => ?_⟩
  -- The first part is done again in the later scene, and the second one in the scene after that.
  obtain ⟨v, hv⟩ := hagain later (hbu.trans hlater)
  have hlv := ((hx later hlater.roomy).ok hv).1
  obtain ⟨w, hw⟩ := hbagain v (hlater.trans hlv)
  exact ⟨w, by rw [bind_ok hv, hw]⟩

theorem spells {b : Bool} {a : α} (h : Spells x b a) : Repeatable room x := by
  intro sc hsc
  refine h.ends (fun hwritable es _ => ?_) fun _ es _ => (Later.refl hsc).note es
  refine ⟨(Later.refl hsc).note es, fun later hlater => Ends.exists_ok ?_⟩
  have hlimited : later.limited = sc.limited := hlater.limited_eq
  refine h.ends (fun _ _ _ => rfl) fun hlong => ?_
  rw [hlimited, hwritable] at hlong
  cases hlong

theorem quiet {a : α} (h : Quiet x a) : Repeatable room x :=
  spells h.spells

theorem fail (e : Failure) : Repeatable room (fail e : Action Failure State α) :=
  fun _ hsc => .refl hsc

theorem tell (e : Event) : Repeatable room (tell e) := by
  intro sc hsc
  rw [ends_tell]
  split
  · rename_i hwritable
    refine ⟨(Later.refl hsc).note _, fun later hlater => Ends.exists_ok ?_⟩
    have hlimited : later.limited = sc.limited := hlater.limited_eq
    rw [ends_tell, hlimited, if_pos hwritable]
  · exact .refl hsc

theorem update (g : Progress → Progress) : Repeatable room (Progress.update g) :=
  fun _ hsc => ⟨.counted hsc _, fun _ _ => ⟨_, rfl⟩⟩

theorem resolving {r : Resolver} {s : Site} (hroom : ∀ t, r.Depends s t → t.offset ∈ room) :
    Repeatable room (resolving (r.resolve (some s))) := by
  intro sc hsc
  rw [Survey.resolving, ends_onPart]
  refine (Resolver.ends_resolve_known hroom hsc).imp ?_ fun _ sc' h => ⟨h, fun _ _ => id⟩
  rintro l sc' ⟨hgrows, hknown⟩
  refine ⟨⟨hgrows, fun _ _ => id⟩, fun later hlater => ?_⟩
  have hhit := hlater.held s.offset l hknown
  exact ⟨_, resolving_of_ok (Resolver.resolve_of_hit hhit)⟩

theorem fileTable (u : CompilationUnit) : Repeatable room (fileTable u) := by
  intro sc hsc
  cases hf : sc.state.tables.lookup u.offset with
  | some table =>
    refine Ends.of_ok (fileTable_of_known hf) ⟨.refl hsc, fun later hlater => ?_⟩
    exact ⟨_, fileTable_of_known (hlater.tables _ _ hf)⟩
  | none =>
    obtain ⟨es, -, hok⟩ := fileTable_of_unknown hf
    refine Ends.of_ok hok ⟨⟨(Resolver.Grows.refl hsc).note es, ?_⟩, fun later hlater => ?_⟩
    · intro offset table ht
      have hne : offset ≠ u.offset := by
        rintro rfl
        rw [hf] at ht
        cases ht
      simpa [remembering, lookup_cons_eq_ite, hne] using ht
    · exact ⟨_, fileTable_of_known (hlater.tables _ _ (by simp [remembering]))⟩

/-- Counts and figures are others each time. Only the capacity of the cache matters, as it may be
too long to be told. -/
theorem closeWalk : Repeatable room closeWalk := by
  intro sc hsc
  rw [ends_closeWalk]
  cases hclosable : closable sc with
  | false => exact (Later.refl hsc).note _
  | true =>
    refine ⟨((Later.refl hsc).note _).note _, fun later hlater => Ends.exists_ok ?_⟩
    have hcapacity : later.state.cache.capacity = sc.state.cache.capacity := hlater.capacity_eq
    have hlimited : later.limited = sc.limited := hlater.limited_eq
    have hagain : closable later = true := by rwa [closable, hcapacity, hlimited]
    rw [ends_closeWalk, if_pos hagain]

/-- The number of a unit is told, and nothing else depends on it. -/
theorem trackUnit {ι : Type} {work : Action Failure State (Except ι β)}
    (h : Repeatable room work) (offset : Int) :
    Repeatable room (Progress.trackUnit offset work) := by
  intro sc hsc
  have hentered := Later.entered hsc offset
  refine ends_trackUnit ?_ (fun _ _ ev _ h => h.note [ev])
    ((h _ hentered.roomy).imp ?_ fun _ _ => hentered.trans)
  · rintro a t ev - ⟨ht, hagain⟩
    refine ⟨ht.note [ev], fun later hlater => hagain later ?_⟩
    exact .trans (Later.note (.refl ht.roomy) [ev]) hlater
  · rintro a t ⟨ht, hagain⟩
    refine ⟨hentered.trans ht, fun later hlater => Ends.exists_ok ?_⟩
    obtain ⟨t', ht'⟩ := hagain _ (hlater.trans (.entered hlater.roomy offset))
    exact ends_trackUnit (fun _ _ _ _ => id) (fun _ _ _ _ => id) (Ends.of_ok ht' rfl)

end Repeatable

variable {sv : Survey} {u : CompilationUnit} {s : Site} {unit : String} {r : Record}
  {sc sc' : Scene State}

/-- There is room for every entry that can be referred to. -/
def HasRoom (sv : Survey) (room : List Int) : Prop :=
  ∀ s ∈ sv.resolver.sites, s.offset ∈ room

theorem HasRoom.regular (h : sv.HasRoom room) : sv.Regular (fun _ => True) (Repeatable room) where
  bind := Repeatable.bind
  spells := Repeatable.spells
  tell _ _ _ := Repeatable.tell _
  countEntry := Repeatable.update _
  countSkipped := Repeatable.update _
  resolve _ hs := Repeatable.resolving fun t ht => h t (List.mem_of_find?_eq_some (ht.holds hs))
  fileTable u _ := Repeatable.fileTable u

theorem HasRoom.recordOf (h : sv.HasRoom room) (u : CompilationUnit) (s : Site) (unit : String) :
    Repeatable room (sv.recordOf u s unit) :=
  h.regular.recordOf (u := u) trivial s unit

theorem HasRoom.recordAt (h : sv.HasRoom room) (u : CompilationUnit) (visit : Visit) :
    Repeatable room (sv.recordAt u visit) :=
  h.regular.recordAt_of_fail Repeatable.fail trivial visit

section Fold

variable {ι : Type} {step : β → Record → Action Failure State (Except ι β)}

theorem HasRoom.foldVisits (h : sv.HasRoom room) (hstep : ∀ b r, Repeatable room (step b r))
    (u : CompilationUnit) (visits : List Visit) (seen : List Identity) (b : β) :
    Repeatable room (sv.foldVisits step u visits seen b) := by
  induction visits generalizing seen b with
  | nil => exact .quiet (.pure _)
  | cons visit visits ih =>
    refine .bind (h.recordAt u visit) ?_
    rintro (_ | r) - - -
    · exact ih seen b
    dsimp only
    split
    · exact ih seen b
    refine .bind (.update _) fun _ _ _ _ => .bind (hstep b r) ?_
    rintro (interruption | next) - - -
    · exact .quiet (.pure _)
    · exact ih _ next

theorem HasRoom.foldUnits (h : sv.HasRoom room) (hstep : ∀ b r, Repeatable room (step b r))
    (units : List CompilationUnit) (seen : List Identity) (b : β) :
    Repeatable room (sv.foldUnits step units seen b) := by
  induction units generalizing seen b with
  | nil => exact .quiet (.pure _)
  | cons u units ih =>
    refine .bind (.trackUnit (h.foldVisits hstep u u.visits seen b) u.offset) ?_
    rintro (interruption | ⟨reported, next⟩) - - -
    · exact .quiet (.pure _)
    · exact ih reported next

theorem HasRoom.foldRecords (h : sv.HasRoom room) (hstep : ∀ b r, Repeatable room (step b r))
    (b : β) : Repeatable room (sv.foldRecords step b) := by
  refine .bind (h.foldUnits hstep sv.units [] b) ?_
  rintro (interruption | ⟨reported, result⟩) - - -
  · exact .quiet (.pure _)
  · exact .bind .closeWalk fun _ _ _ _ => .quiet (.pure _)

end Fold

theorem HasRoom.records (h : sv.HasRoom room) : Repeatable room sv.records :=
  h.regular.records (h.foldRecords (fun _ _ => .quiet (.pure _)) [])

theorem HasRoom.firstRecords (h : sv.HasRoom room) (limit : Nat) :
    Repeatable room (sv.firstRecords limit) :=
  h.regular.firstRecords (h.foldRecords (fun _ _ => .quiet (.pure _)) [])

/-- All that a survey says about the record at a site is what it says about its parts. -/
structure Agrees (sv : Survey) (u : CompilationUnit) (s : Site) (unit : String) (r : Record)
    (sc : Scene State) : Prop where
  fields : (sv.fieldsOf s).result sc = .ok r.fields
  alignment : (sv.alignmentOf s).result sc = .ok r.alignment
  actualSize : (sv.actualSizeOf s).result sc = .ok r.actualSize
  record : (sv.recordOf u s unit).result sc = .ok (some r)

theorem not_skip_eq_some {label : String} {reason : Skip} :
    skip label s reason sc ≠ .ok (some r) sc' := by
  intro h
  obtain ⟨-, t, -, hcount⟩ := of_bind_ok h
  obtain ⟨-, t', -, hnone⟩ := of_bind_ok hcount
  cases hnone

/-- Where there is a record, its members were asked for first, and the rest follows from them. -/
theorem fieldsOf_of_recordOf (h : sv.recordOf u s unit sc = .ok (some r) sc') :
    (∃ t, sv.fieldsOf s sc = .ok r.fields t) ∧ r.alignment = plainAlignment s r.fields ∧
      r.actualSize = roundUp (plainSize s) r.alignment := by
  unfold recordOf at h
  obtain ⟨_, sc₀, hname, h⟩ := of_bind_ok h
  obtain ⟨-, rfl⟩ := of_write_ok hname
  split at h
  · cases h
  cases hdefinition : sv.definitionSkip? s with
  | some reason =>
    rw [hdefinition] at h
    exact absurd h not_skip_eq_some
  | none =>
  rw [hdefinition] at h
  obtain ⟨fields, t, hfields, h⟩ := of_bind_ok h
  split at h
  · exact absurd h not_skip_eq_some
  obtain ⟨alignment, t₁, halignment, h⟩ := of_bind_ok h
  obtain ⟨reason?, t₂, -, h⟩ := of_bind_ok h
  cases reason? with
  | some reason => exact absurd h not_skip_eq_some
  | none =>
    obtain ⟨size, t₃, hsize, h⟩ := of_bind_ok h
    obtain ⟨location, t₄, -, h⟩ := of_bind_ok h
    cases h
    exact ⟨⟨t, hfields⟩, (quiet_alignmentFor s fields).eq_of_ok halignment,
      (quiet_sizeFor s alignment).eq_of_ok hsize⟩

theorem agrees_of_recordOf (h : sv.recordOf u s unit sc = .ok (some r) sc') :
    sv.Agrees u s unit r sc := by
  obtain ⟨⟨t, hfields⟩, halignment, hsize⟩ := fieldsOf_of_recordOf h
  obtain ⟨es, -, hes⟩ := quiet_alignmentFor (ε := Failure) (σ := State) s r.fields
  obtain ⟨fs, -, hfs⟩ := quiet_sizeFor (ε := Failure) (σ := State) s r.alignment
  have halignmentOf : sv.alignmentOf s sc = .ok r.alignment (t.note es) := by
    rw [halignment]
    exact (bind_ok hfields _).trans (hes t)
  constructor
  · exact result_of_ok hfields
  · exact result_of_ok halignmentOf
  · rw [hsize]
    exact result_of_ok ((bind_ok halignmentOf _).trans (hfs _))
  · exact result_of_ok h

/-- A record that a survey has found stays the same, and so does all that is said about it. -/
theorem HasRoom.agrees (h : sv.HasRoom room) (hsc : (layouts sc).state.Roomy room)
    (hr : sv.recordOf u s unit sc = .ok (some r) sc') {later : Scene State}
    (hlater : Later room sc' later) : sv.Agrees u s unit r later := by
  obtain ⟨t, ht⟩ := ((h.recordOf u s unit sc hsc).ok hr).2 later hlater
  exact agrees_of_recordOf ht

/-! ### Enumerated records -/

/-- A record that was found at some site of a unit, not later than in a given scene. -/
def Found (sv : Survey) (room : List Int) (r : Record) (sc : Scene State) : Prop :=
  ∃ u ∈ sv.units, ∃ s, Visit.site s ∈ u.visits ∧ ∃ sc₀ sc₁, (layouts sc₀).state.Roomy room ∧
    sv.recordOf u s u.displayName sc₀ = .ok (some r) sc₁ ∧ Later room sc₁ sc

theorem Found.later (h : sv.Found room r sc) (hl : Later room sc sc') : sv.Found room r sc' := by
  obtain ⟨u, hu, s, hs, sc₀, sc₁, hroomy, hr, hsc⟩ := h
  exact ⟨u, hu, s, hs, sc₀, sc₁, hroomy, hr, hsc.trans hl⟩

theorem Found.agrees (h : sv.Found room r sc) (hroom : sv.HasRoom room) :
    ∃ u ∈ sv.units, ∃ s, Visit.site s ∈ u.visits ∧ sv.Agrees u s u.displayName r sc := by
  obtain ⟨u, hu, s, hs, sc₀, sc₁, hroomy, hr, hsc⟩ := h
  exact ⟨u, hu, s, hs, hroom.agrees hroomy hr hsc⟩

theorem recordOf_of_recordAt {visit : Visit} (h : sv.recordAt u visit sc = .ok (some r) sc') :
    ∃ s sc₀, visit = .site s ∧ (layouts sc₀).state = (layouts sc).state ∧
      sv.recordOf u s u.displayName sc₀ = .ok (some r) sc' := by
  obtain ⟨unit, sc₁, hunit, h⟩ := of_bind_ok h
  obtain ⟨rfl, rfl⟩ := of_write_ok hunit
  cases visit with
  | broken message => cases h
  | gap =>
    obtain ⟨-, t, -, h⟩ := of_bind_ok h
    cases h
  | site s =>
    obtain ⟨_, t, hcount, h⟩ := of_bind_ok h
    have ht : (layouts t).state = (layouts sc).state := by
      cases hcount
      rfl
    split at h
    · exact ⟨s, t, rfl, ht, h⟩
    · cases h

/-- The records that a walk has handed on so far, and nothing was forgotten on the way. -/
def Collected (sv : Survey) (room : List Int) (sc : Scene State) (rs : List Record)
    (sc' : Scene State) : Prop :=
  Later room sc sc' ∧ ∀ r ∈ rs, sv.Found room r sc'

theorem Collected.later {sc'' : Scene State} {rs : List Record}
    (h : sv.Collected room sc rs sc') (hl : Later room sc' sc'') : sv.Collected room sc rs sc'' :=
  ⟨h.1.trans hl, fun r hr => (h.2 r hr).later hl⟩

theorem Collected.snoc {rs : List Record} (h : sv.Collected room sc rs sc')
    (hr : sv.Found room r sc') : sv.Collected room sc (rs ++ [r]) sc' := by
  refine ⟨h.1, fun r' hr' => ?_⟩
  rcases List.mem_append.1 hr' with hr' | hr'
  · exact h.2 r' hr'
  · rwa [List.mem_singleton.1 hr']

/-- A walk that collects records hands on those that were found on the way. Stopping it early makes
no difference. -/
theorem HasRoom.ends_foldRecords {ι : Type} (h : sv.HasRoom room)
    (hsc : (layouts sc).state.Roomy room) (read : Except ι (List Record) → List Record)
    (step : List Record → Record → Except ι (List Record)) (hread : ∀ rs, read (.ok rs) = rs)
    (hstep : ∀ rs r, read (step rs r) = rs ++ [r]) :
    Ends (sv.foldRecords (fun rs r => pure (step rs r)) []) sc
      (fun out sc' => sv.Collected room sc (read out) sc') (fun _ _ => True) := by
  refine Survey.ends_foldRecords (F := sv.Found room) ?_ (fun _ _ _ _ => id) ?_ ?_ ?_
    (fun _ _ _ _ => trivial) ?_
  · intro out t ev _ hout
    exact hout.later ((Later.refl hout.1.roomy).note [ev])
  · intro rs t offset hrs
    exact hrs.later (.entered hrs.1.roomy offset)
  · intro u hu visit hvisit rs t hrs
    cases hx : sv.recordAt u visit t with
    | error e t' => exact Ends.of_error hx trivial
    | ok r? t' =>
      have hlater := ((h.recordAt u visit t hrs.1.roomy).ok hx).1
      refine Ends.of_ok hx ⟨hrs.later hlater, ?_⟩
      rintro r rfl
      obtain ⟨s, t₀, rfl, hlayouts, hr⟩ := recordOf_of_recordAt hx
      exact ⟨u, hu, s, hvisit, t₀, t', hlayouts ▸ hrs.1.roomy, hr, .refl hlater.roomy⟩
  · intro rs r t hrs hr
    rw [hread] at hrs
    refine Ends.of_ok rfl ?_
    rw [hstep]
    exact (hrs.snoc hr).later (.counted hrs.1.roomy _)
  · rw [hread]
    exact ⟨.refl hsc, by simp⟩

theorem HasRoom.collected_of_records (h : sv.HasRoom room) (hsc : (layouts sc).state.Roomy room)
    {rs : List Record} (hrs : sv.records sc = .ok rs sc') : sv.Collected room sc rs sc' := by
  obtain ⟨out, t, hfold, hout⟩ := of_bind_ok hrs
  cases out with
  | error impossible => exact impossible.elim
  | ok rs =>
    cases hout
    have hends := h.ends_foldRecords hsc (fun out => out.toOption.getD [])
      (fun rs r => (.ok (rs ++ [r]) : Except Empty _)) (fun _ => rfl) (fun _ _ => rfl)
    exact hends.ok hfold

theorem HasRoom.collected_of_firstRecords (h : sv.HasRoom room)
    (hsc : (layouts sc).state.Roomy room) {limit : Nat} {rs : List Record}
    (hrs : sv.firstRecords limit sc = .ok rs sc') : sv.Collected room sc rs sc' := by
  unfold Survey.firstRecords at hrs
  split at hrs
  · cases hrs
    exact ⟨.refl hsc, by simp⟩
  obtain ⟨out, t, hfold, hout⟩ := of_bind_ok hrs
  -- An interruption carries the records up to the last one wanted.
  have hends := h.ends_foldRecords hsc handedOn (stepUpTo limit) (fun _ => rfl)
    (handedOn_stepUpTo limit)
  cases out with
  | ok rs =>
    cases hout
    exact hends.ok hfold
  | error rs =>
    cases hout
    exact hends.ok hfold

/-! ### Requests -/

inductive Request where
  | records
  | firstRecords (limit : Nat)
  | fieldsOf (s : Site)
  | alignmentOf (s : Site)
  | actualSizeOf (s : Site)
  | recordOf (u : CompilationUnit) (s : Site) (unit : String)
  | resolve (s : Option Site)
  | resolveMember (member : Entry)

def Request.after (sv : Survey) (sc : Scene State) : Request → Scene State
  | .records => sv.records.after sc
  | .firstRecords limit => (sv.firstRecords limit).after sc
  | .fieldsOf s => (sv.fieldsOf s).after sc
  | .alignmentOf s => (sv.alignmentOf s).after sc
  | .actualSizeOf s => (sv.actualSizeOf s).after sc
  | .recordOf u s unit => (sv.recordOf u s unit).after sc
  | .resolve s => (resolving (sv.resolver.resolve s)).after sc
  | .resolveMember member => (resolving (sv.resolver.resolveMember member)).after sc

def afterAll (sv : Survey) (sc : Scene State) (qs : List Request) : Scene State :=
  qs.foldl (Request.after sv) sc

theorem afterAll_induction {I : Scene State → Prop} {qs : List Request} (h₀ : I sc)
    (hstep : ∀ q ∈ qs, ∀ sc, I sc → I (q.after sv sc)) : I (sv.afterAll sc qs) := by
  unfold afterAll
  induction qs generalizing sc with
  | nil => exact h₀
  | cons q qs ih =>
    exact ih (hstep q (by simp) sc h₀) fun q hq => hstep q (by simp [hq])

/-- A type that is asked for is an entry of the program. -/
def Request.Proper (sv : Survey) : Request → Prop
  | .resolve (some s) => s ∈ sv.resolver.sites
  | _ => True

theorem Repeatable.later_after {x : Action Failure State α} (h : Repeatable room x)
    (hsc : (layouts sc).state.Roomy room) : Later room sc (x.after sc) :=
  Ends.after ((h sc hsc).imp (fun _ _ => And.left) fun _ _ => id)

theorem Request.later_after {q : Request} (h : sv.HasRoom room) (hq : q.Proper sv)
    (hsc : (layouts sc).state.Roomy room) : Later room sc (q.after sv sc) := by
  cases q with
  | records => exact h.records.later_after hsc
  | firstRecords limit => exact (h.firstRecords limit).later_after hsc
  | fieldsOf s => exact Repeatable.later_after (h.regular.fieldsOf s) hsc
  | alignmentOf s => exact Repeatable.later_after (h.regular.alignmentOf s) hsc
  | actualSizeOf s => exact Repeatable.later_after (h.regular.actualSizeOf s) hsc
  | recordOf u s unit => exact (h.recordOf u s unit).later_after hsc
  | resolve target =>
    refine Repeatable.later_after ?_ hsc
    cases target with
    | none => exact .quiet (quiet_resolving (.pure Layout.void))
    | some s =>
      refine .resolving fun t ht => ?_
      -- The type itself is an entry, and what it depends on can be looked up.
      rcases Relation.ReflTransGen.cases_tail ht with rfl | ⟨u, -, ht⟩
      · exact h _ hq
      · exact h t (List.mem_of_find?_eq_some (Resolver.holds_of_mem_followed ht))
  | resolveMember member => exact Repeatable.later_after (h.regular.resolveMember member) hsc

theorem later_afterAll {qs : List Request} (h : sv.HasRoom room) (hqs : ∀ q ∈ qs, q.Proper sv)
    (hsc : (layouts sc).state.Roomy room) : Later room sc (sv.afterAll sc qs) :=
  afterAll_induction (.refl hsc) fun q hq _ hlater =>
    hlater.trans (Request.later_after h (hqs q hq) hlater.roomy)

/-- A repeatable request comes to the same again, whatever was asked in between. -/
theorem Repeatable.again {x : Action Failure State α} {a : α} {qs : List Request}
    (hx : Repeatable room x) (h : sv.HasRoom room) (hqs : ∀ q ∈ qs, q.Proper sv)
    (hsc : (layouts sc).state.Roomy room) (hxs : x sc = .ok a sc') :
    Later room sc' (sv.afterAll sc' qs) ∧ x.result (sv.afterAll sc' qs) = .ok a := by
  obtain ⟨hsc', hagain⟩ := (hx sc hsc).ok hxs
  have hlater := later_afterAll h hqs hsc'.roomy
  obtain ⟨t, ht⟩ := hagain _ hlater
  exact ⟨hlater, result_of_ok ht⟩

/-- What a survey has found at a site or enumerated it finds and enumerates again, whatever is asked
in between, and what it says about single members, alignments and sizes agrees with it. All that is
needed is room in the cache for the entries of the program. References may be circular, too deep or
broken, and requests may fail. -/
theorem agrees_afterAll (info : Info) (platform : Platform) (names : List String)
    (tuning : Tuning) (limited : Bool)
    (hroom : ((info.sites.map fun s => s.offset).dedup.length : Int) ≤ tuning.cacheSize)
    (before after : List Request)
    (hbefore : ∀ q ∈ before, q.Proper (.ofInfo info platform names tuning))
    (hafter : ∀ q ∈ after, q.Proper (.ofInfo info platform names tuning)) :
    let sv := Survey.ofInfo info platform names tuning
    let sc := sv.afterAll (sv.start limited) before
    (∀ u s unit r sc', sv.recordOf u s unit sc = .ok (some r) sc' →
      sv.Agrees u s unit r (sv.afterAll sc' after)) ∧
    (∀ rs sc', sv.records sc = .ok rs sc' →
      sv.records.result (sv.afterAll sc' after) = .ok rs ∧
      ∀ r ∈ rs, ∃ u ∈ info.units, ∃ s, Visit.site s ∈ u.visits ∧
        sv.Agrees u s u.displayName r (sv.afterAll sc' after)) ∧
    ∀ limit rs sc', sv.firstRecords limit sc = .ok rs sc' →
      (sv.firstRecords limit).result (sv.afterAll sc' after) = .ok rs ∧
      ∀ r ∈ rs, ∃ u ∈ info.units, ∃ s, Visit.site s ∈ u.visits ∧
        sv.Agrees u s u.displayName r (sv.afterAll sc' after) := by
  intro sv sc
  have h : sv.HasRoom (info.sites.map fun s => s.offset).dedup := by
    intro s hs
    exact List.mem_dedup.2 (List.mem_map_of_mem hs)
  have hstart : (layouts (sv.start limited)).state.Roomy _ := Cache.roomy_nil hroom
  have hsc : (layouts sc).state.Roomy _ := (later_afterAll h hbefore hstart).roomy
  refine ⟨?_, ?_, ?_⟩
  · intro u s unit r sc' hr
    obtain ⟨hlater, -⟩ := (h.recordOf u s unit).again h hafter hsc hr
    exact h.agrees hsc hr hlater
  · intro rs sc' hrs
    obtain ⟨hlater, hagain⟩ := h.records.again h hafter hsc hrs
    refine ⟨hagain, fun r hr => ?_⟩
    exact (((h.collected_of_records hsc hrs).2 r hr).later hlater).agrees h
  · intro limit rs sc' hrs
    obtain ⟨hlater, hagain⟩ := (h.firstRecords limit).again h hafter hsc hrs
    refine ⟨hagain, fun r hr => ?_⟩
    exact (((h.collected_of_firstRecords hsc hrs).2 r hr).later hlater).agrees h

def knotUnit : CompilationUnit where
  trees := [treeOf Resolver.knotHead, treeOf Resolver.knotTail, treeOf Resolver.wordType]

/-- The survey of the unit, with room for the five offsets at which it has entries. -/
def knotSurvey : Survey :=
  .ofInfo { units := [knotUnit] } {} [] { includeAnonymous := true, cacheSize := 5 }

def inKnot (s : Site) : Site :=
  { s with enclosing := [knotUnit.top] }

/-- The record of the second structure stays what it was after the first was asked for, although
chains are cut off at both. -/
theorem agrees_knotTail :
    ∃ r sc',
      knotSurvey.recordOf knotUnit (inKnot Resolver.knotTail) "u"
          (knotSurvey.afterAll (knotSurvey.start true)
            [.resolve (some (inKnot Resolver.knotHead))]) = .ok (some r) sc' ∧
      r.fields.map Field.alignment = [8] ∧
      knotSurvey.Agrees knotUnit (inKnot Resolver.knotTail) "u" r
        (knotSurvey.afterAll sc'
          [.records, .resolve (some (inKnot Resolver.knotTail)), .firstRecords 1]) := by
  have hbefore : ∀ q ∈ [Request.resolve (some (inKnot Resolver.knotHead))],
      q.Proper knotSurvey := by
    simp only [List.forall_mem_singleton]
    exact List.mem_of_getElem? (i := 1) rfl
  have hafter : ∀ q ∈ [Request.records, .resolve (some (inKnot Resolver.knotTail)),
      .firstRecords 1], q.Proper knotSurvey := by
    simp only [List.forall_mem_cons]
    exact ⟨trivial, List.mem_of_getElem? (i := 4) rfl, trivial, by simp⟩
  have hresult : (knotSurvey.recordOf knotUnit (inKnot Resolver.knotTail) "u").result
      (knotSurvey.afterAll (knotSurvey.start true)
        [.resolve (some (inKnot Resolver.knotHead))]) =
      .ok (some
        { name := "(anonymous@0x2)"
          fields := [{ name := "(anonymous@0)", size := 16, alignment := 8 }]
          actualSize := 16
          alignment := 8
          unit := "u" }) := by
    decide +kernel
  obtain ⟨sc', hsc'⟩ := ok_of_result hresult
  exact ⟨_, sc', hsc', rfl, (agrees_afterAll _ _ _ _ true (by decide +kernel) _ _ hbefore
    hafter).1 _ _ _ _ _ hsc'⟩

end Survey

end PaddingAudit
