import Mathlib.Data.List.Forall2
import Mathlib.Data.List.ReduceOption
import PaddingAudit.Proofs.Duplicates
import PaddingAudit.Proofs.Selection

/-!
# No definition is lost

An enumeration comes upon record definitions. Each of them is handed on, or counted as skipped, or
suppressed as a duplicate, and nothing else is counted. The counts at the end of an enumeration are
those of the walk.
-/

namespace PaddingAudit

open Debug PaddingAudit.Action

theorem Action.ends_self {ε σ α : Type} (x : Action ε σ α) (s : Scene σ) :
    Ends x s (fun a t => x s = .ok a t) (fun e t => x s = .error e t) := by
  unfold Ends
  split <;> assumption

namespace Survey

variable {α β : Type} {sv : Survey}

/-- A step that changes the counts as `g` says, which may look at the value of the step. -/
def Counts (x : Action Failure State α) (g : α → Progress → Progress) : Prop :=
  ∀ sc, Ends x sc (fun a sc' => sc'.state.progress = g a sc.state.progress) (fun _ _ => True)

/-- A step that leaves the counts as they are. -/
abbrev Uncounted (x : Action Failure State α) : Prop :=
  Counts x fun _ p => p

/-- The counts after a definition was looked at: if nothing came of it, it is skipped. -/
def settled : Option Record → Progress → Progress
  | some _, p => p
  | none, p => { p with skipped := p.skipped + 1 }

section Counts

variable {x : Action Failure State α} {f : α → Action Failure State β}
  {g : β → Progress → Progress}

theorem Counts.bind (hx : Uncounted x) (hf : ∀ a, Counts (f a) g) : Counts (x >>= f) g := by
  intro sc
  refine (hx sc).bind fun a sc' hsc' => ?_
  have hrest := hf a sc'
  rwa [hsc'] at hrest

theorem Counts.spells {b : Bool} {a : α} (h : Spells x b a) : Uncounted x :=
  fun _ => h.ends (fun _ _ _ => rfl) fun _ _ _ => trivial

theorem Counts.quiet {a : α} (h : Quiet x a) : Uncounted x :=
  .spells h.spells

theorem counts_pure {b : β} (h : ∀ p, g b p = p) : Counts (pure b) g :=
  fun _ => (h _).symm

theorem uncounted_tell (e : Event) : Uncounted (Action.tell e) := by
  intro sc
  rw [ends_tell]
  split
  · rfl
  · trivial

theorem uncounted_resolving (x : Action Failure Cache α) : Uncounted (resolving x) := by
  intro sc
  rw [resolving, ends_onPart]
  unfold Ends
  split
  · rfl
  · trivial

theorem uncounted_fileTable (u : CompilationUnit) : Uncounted (fileTable u) := by
  intro sc
  cases hf : sc.state.tables.lookup u.offset with
  | some table => exact Ends.of_ok (fileTable_of_known hf) rfl
  | none =>
    obtain ⟨es, -, hok⟩ := fileTable_of_unknown hf
    exact Ends.of_ok hok rfl

theorem Counts.mapM {step : α → Action Failure State β} (h : ∀ a, Uncounted (step a))
    (l : List α) : Uncounted (l.mapM step) := by
  induction l with
  | nil => exact .quiet (.pure [])
  | cons a l ih =>
    rw [List.mapM_cons]
    exact .bind (h a) fun b => .bind ih fun bs => .quiet (.pure _)

theorem uncounted_fieldsOf (sv : Survey) (s : Site) : Uncounted (sv.fieldsOf s) := by
  refine .mapM (fun member => ?_) s.members
  exact .bind (uncounted_resolving _) fun layout =>
    .bind (.spells (spells_memberName member)) fun _ => .quiet (.pure _)

theorem uncounted_locationOf (u : CompilationUnit) (e : Entry) : Uncounted (locationOf u e) := by
  refine .bind (.quiet (e.quiet_readInt .declFile)) fun number => ?_
  cases number with
  | none => exact .quiet (.pure none)
  | some number =>
    refine .bind (uncounted_fileTable u) fun table => ?_
    refine .bind (.spells (spells_fileName table number)) fun file => ?_
    refine .bind (.quiet (e.quiet_readInt .declLine)) fun line => ?_
    exact .bind (.quiet (e.quiet_readInt .declColumn)) fun column => .quiet (.pure _)

theorem counts_skip (label : String) (s : Site) (reason : Skip) :
    Counts (skip label s reason) settled :=
  .bind (uncounted_tell _) fun _ _ => rfl

/-- A definition that is asked for is counted as skipped exactly if nothing comes of it. -/
theorem counts_recordOf {s : Site} (h : sv.selects s) (u : CompilationUnit) (unit : String) :
    Counts (sv.recordOf u s unit) settled := by
  unfold recordOf
  refine .bind (.spells s.spells_readQualifiedName) fun _ => ?_
  rw [h]
  simp only [Bool.not_true, Bool.false_eq_true, if_false]
  split
  · exact counts_skip _ _ _
  refine .bind (uncounted_fieldsOf sv s) fun fields => ?_
  split
  · exact counts_skip _ _ _
  refine .bind (.quiet (quiet_alignmentFor s fields)) fun alignment => ?_
  refine .bind (.quiet (sv.quiet_layoutSkip s fields alignment)) fun reason? => ?_
  cases reason? with
  | some reason => exact counts_skip _ _ _
  | none =>
    refine .bind (.quiet (quiet_sizeFor s alignment)) fun size => ?_
    exact .bind (uncounted_locationOf u s.toEntry) fun location => counts_pure fun _ => rfl

end Counts

/-- The record definitions among some visits, each with its unit. -/
def definitions (visits : List (CompilationUnit × Visit)) : List (CompilationUnit × Site) :=
  visits.filterMap fun x => (x.2.site?.filter fun s => s.tagged Tag.isRecord).map (Prod.mk x.1)

/-- What can come of a definition: what the survey made of it in some scene. -/
def Gives (sv : Survey) (d : CompilationUnit × Site) (r? : Option Record) : Prop :=
  ∃ before after, sv.recordOf d.1 d.2 d.1.displayName before = .ok r? after

/-- What a visit does to the counts. -/
inductive Sighted (sv : Survey) (u : CompilationUnit) (visit : Visit) (p : Progress) :
    Option Record → Progress → Prop where
  | other (h : definitions [(u, visit)] = []) :
      Sighted sv u visit p none { p with entries := p.entries + 1 }
  | definition {s : Site} {r? : Option Record} (h : definitions [(u, visit)] = [(u, s)])
      (hr : sv.Gives (u, s) r?) :
      Sighted sv u visit p r? (settled r? { p with entries := p.entries + 1 })

/-- Every visit is counted, and a definition of which nothing comes is counted as skipped. -/
theorem ends_recordAt (hall : sv.names = none) (u : CompilationUnit) (visit : Visit)
    (sc : Scene State) :
    Ends (sv.recordAt u visit) sc
      (fun r? sc' => sv.Sighted u visit sc.state.progress r? sc'.state.progress)
      (fun _ _ => True) := by
  unfold recordAt
  refine ((ends_self u.readName sc).imp (fun _ _ => id) fun _ _ _ => trivial).bind ?_
  intro unit sc₁ hunit
  obtain ⟨rfl, rfl⟩ := of_write_ok hunit
  cases visit with
  | broken message => trivial
  | gap => exact Sighted.other rfl
  | site s =>
    by_cases hs : s.tagged Tag.isRecord
    · have hselects : sv.selects s := by simp [selects, hall]
      have hdefinition : definitions [(u, Visit.site s)] = [(u, s)] := by
        simp [definitions, Visit.site?, hs]
      dsimp only
      rw [if_pos hs]
      refine ends_bind.2 (((counts_recordOf hselects u u.displayName _).and (ends_self _ _)).imp ?_
        fun _ _ _ => trivial)
      rintro r? sc' ⟨hcounts, hr⟩
      rw [hcounts]
      exact .definition hdefinition ⟨_, _, hr⟩
    · have hother : definitions [(u, Visit.site s)] = [] := by
        simp [definitions, Visit.site?, hs]
      dsimp only
      rw [if_neg hs]
      exact Sighted.other hother

/-! ### The ledger of a walk -/

/-- The records that are suppressed: an earlier one has the same identity. -/
def repeats (rs : List Record) : List Record :=
  (rs.zipIdx.filter fun x => ((rs.take x.2).map identity).contains (identity x.1)).map Prod.fst

theorem length_firsts_add_length_repeats (rs : List Record) :
    (firsts rs).length + (repeats rs).length = rs.length := by
  have hsplit := List.length_eq_length_filter_add (l := rs.zipIdx)
    fun x => decide (identity x.1 ∉ (rs.take x.2).map identity)
  simp only [decide_not, Bool.not_not, List.length_zipIdx] at hsplit
  simp only [firsts, repeats, List.length_map, List.contains_eq_mem, decide_not, ← hsplit]

/-- The records that are handed on out of those that were found. -/
def handsOn (sv : Survey) (found : List Record) : List Record :=
  if sv.tuning.deduplicate then firsts found else found

/-- The records that are not handed on out of those that were found. -/
def suppresses (sv : Survey) (found : List Record) : List Record :=
  if sv.tuning.deduplicate then repeats found else []

theorem length_handsOn_add_length_suppresses (sv : Survey) (found : List Record) :
    (sv.handsOn found).length + (sv.suppresses found).length = found.length := by
  unfold handsOn suppresses
  split
  · exact length_firsts_add_length_repeats found
  · rfl

/-- Where a walk is that has entered some units and made some visits, has come to these outcomes of
the definitions among them, and has handed on `rs`. -/
structure Ledger (sv : Survey) (units : Nat) (walked : List (CompilationUnit × Visit))
    (outcomes : List (Option Record)) (rs : List Record) (seen : List Identity) (p : Progress) :
    Prop where
  gives : List.Forall₂ sv.Gives (definitions walked) outcomes
  handedOn : rs = sv.handsOn outcomes.reduceOption
  seen_iff : ∀ i, i ∈ seen ↔ i ∈ outcomes.reduceOption.map identity
  units_eq : p.units = units
  entries_eq : p.entries = walked.length
  records_eq : p.records = rs.length
  skipped_eq : p.skipped = outcomes.countP Option.isNone

namespace Ledger

variable {units : Nat} {walked : List (CompilationUnit × Visit)}
  {outcomes : List (Option Record)} {rs : List Record} {seen : List Identity} {p : Progress}
  {u : CompilationUnit} {visit : Visit} {s : Site} {r : Record}

theorem entered (h : sv.Ledger units walked outcomes rs seen p) :
    sv.Ledger (units + 1) walked outcomes rs seen { p with units := p.units + 1 } :=
  { h with units_eq := by simp [h.units_eq] }

theorem definitions_append (walked walked' : List (CompilationUnit × Visit)) :
    definitions (walked ++ walked') = definitions walked ++ definitions walked' :=
  List.filterMap_append

theorem gives_snoc {r? : Option Record} (h : sv.Ledger units walked outcomes rs seen p)
    (hv : definitions [(u, visit)] = [(u, s)]) (hr : sv.Gives (u, s) r?) :
    List.Forall₂ sv.Gives (definitions (walked ++ [(u, visit)])) (outcomes ++ [r?]) := by
  rw [definitions_append, hv]
  exact List.rel_append h.gives (.cons hr .nil)

/-- A visit to anything but a definition. -/
theorem other (h : sv.Ledger units walked outcomes rs seen p)
    (hv : definitions [(u, visit)] = []) :
    sv.Ledger units (walked ++ [(u, visit)]) outcomes rs seen
      { p with entries := p.entries + 1 } := by
  refine { h with gives := ?_, entries_eq := ?_ }
  · rw [definitions_append, hv, List.append_nil]
    exact h.gives
  · simp [h.entries_eq]

/-- A definition of which nothing comes. -/
theorem skipped (h : sv.Ledger units walked outcomes rs seen p)
    (hv : definitions [(u, visit)] = [(u, s)]) (hr : sv.Gives (u, s) none) :
    sv.Ledger units (walked ++ [(u, visit)]) (outcomes ++ [none]) rs seen
      { p with entries := p.entries + 1, skipped := p.skipped + 1 } := by
  have hfound : (outcomes ++ [none]).reduceOption = outcomes.reduceOption := by
    simp [List.reduceOption_append]
  refine { h with
    gives := h.gives_snoc hv hr, handedOn := ?_, seen_iff := ?_, entries_eq := ?_,
    skipped_eq := ?_ }
  · rw [hfound, h.handedOn]
  · rw [hfound]
    exact h.seen_iff
  · simp [h.entries_eq]
  · simp [h.skipped_eq]

/-- A definition that gives a record which was handed on before. -/
theorem repeated (h : sv.Ledger units walked outcomes rs seen p)
    (hv : definitions [(u, visit)] = [(u, s)]) (hr : sv.Gives (u, s) (some r))
    (hrepeated : sv.isRepeated seen r) :
    sv.Ledger units (walked ++ [(u, visit)]) (outcomes ++ [some r]) rs seen
      { p with entries := p.entries + 1 } := by
  have hfound : (outcomes ++ [some r]).reduceOption = outcomes.reduceOption ++ [r] := by
    simp [List.reduceOption_append]
  obtain ⟨hdeduplicate, hseen⟩ : sv.tuning.deduplicate ∧ identity r ∈ seen := by
    simpa [isRepeated] using hrepeated
  rw [h.seen_iff] at hseen
  refine { h with
    gives := h.gives_snoc hv hr, handedOn := ?_, seen_iff := ?_, entries_eq := ?_,
    skipped_eq := ?_ }
  · rw [hfound, h.handedOn]
    simp only [handsOn, hdeduplicate, if_true, firsts_snoc, if_pos hseen]
  · intro i
    rw [hfound, h.seen_iff, List.map_append, List.mem_append, List.map_singleton,
      List.mem_singleton]
    constructor
    · exact .inl
    · rintro (hi | rfl)
      · exact hi
      · exact hseen
  · simp [h.entries_eq]
  · simp [h.skipped_eq]

/-- A definition that gives a record which is handed on. -/
theorem new (h : sv.Ledger units walked outcomes rs seen p)
    (hv : definitions [(u, visit)] = [(u, s)]) (hr : sv.Gives (u, s) (some r))
    (hnew : sv.isRepeated seen r = false) :
    sv.Ledger units (walked ++ [(u, visit)]) (outcomes ++ [some r]) (rs ++ [r])
      (identity r :: seen) { p with entries := p.entries + 1, records := p.records + 1 } := by
  have hfound : (outcomes ++ [some r]).reduceOption = outcomes.reduceOption ++ [r] := by
    simp [List.reduceOption_append]
  refine { h with
    gives := h.gives_snoc hv hr, handedOn := ?_, seen_iff := ?_, entries_eq := ?_,
    records_eq := ?_, skipped_eq := ?_ }
  · rw [hfound, h.handedOn]
    unfold handsOn
    split
    · rename_i hdeduplicate
      have hnot : identity r ∉ outcomes.reduceOption.map identity := by
        rw [← h.seen_iff]
        simpa [isRepeated, hdeduplicate] using hnew
      rw [firsts_snoc, if_neg hnot]
    · rfl
  · intro i
    rw [hfound, List.mem_cons, h.seen_iff, List.map_append, List.mem_append, List.map_singleton,
      List.mem_singleton, or_comm]
  · simp [h.entries_eq]
  · simp [h.records_eq]
  · simp [h.skipped_eq]

end Ledger

/-! ### Walks -/

/-- How a part of a walk ends that has made some visits by then. -/
def Settles (sv : Survey) (units : Nat) (walked : List (CompilationUnit × Visit))
    (out : Except Empty (List Identity × List Record)) (sc : Scene State) : Prop :=
  ∃ outcomes rs seen, out = .ok (seen, rs) ∧
    sv.Ledger units walked outcomes rs seen sc.state.progress

section Walk

variable {units : Nat} {walked : List (CompilationUnit × Visit)}
  {outcomes : List (Option Record)} {rs : List Record} {seen : List Identity} {sc : Scene State}

theorem ends_foldVisits_ledger (hall : sv.names = none) (u : CompilationUnit) (visits : List Visit)
    (h : sv.Ledger units walked outcomes rs seen sc.state.progress) :
    Ends (sv.foldVisits collect u visits seen rs) sc
      (sv.Settles units (walked ++ visits.map (Prod.mk u))) (fun _ _ => True) := by
  induction visits generalizing walked outcomes rs seen sc with
  | nil =>
    rw [List.map_nil, List.append_nil]
    exact ⟨outcomes, rs, seen, rfl, h⟩
  | cons visit visits ih =>
    rw [List.map_cons, List.append_cons]
    refine (ends_recordAt hall u visit sc).bind ?_
    intro r? sc' hsighted
    generalize hp : sc'.state.progress = p at hsighted
    cases hsighted with
    | other hv =>
      apply ih
      rw [hp]
      exact h.other hv
    | @definition s r? hv hr =>
      cases r? with
      | none =>
        apply ih
        rw [hp]
        exact h.skipped hv hr
      | some r =>
        dsimp only
        split
        · rename_i hrepeated
          apply ih
          rw [hp]
          exact h.repeated hv hr hrepeated
        · rename_i hnew
          have hledger : sv.Ledger units (walked ++ [(u, visit)]) (outcomes ++ [some r])
              (rs ++ [r]) (identity r :: seen) (recorded sc').state.progress := by
            simp only [recorded, hp]
            exact h.new hv hr (by simpa using hnew)
          exact ends_bind.2 (ends_bind.2 (ih hledger))

theorem ends_foldUnits_ledger (hall : sv.names = none) (us : List CompilationUnit)
    (h : sv.Ledger units walked outcomes rs seen sc.state.progress) :
    Ends (sv.foldUnits collect us seen rs) sc
      (sv.Settles (units + us.length) (walked ++ walk us)) (fun _ _ => True) := by
  induction us generalizing units walked outcomes rs seen sc with
  | nil =>
    refine ⟨outcomes, rs, seen, rfl, ?_⟩
    simpa [walk] using h
  | cons u us ih =>
    have hentered : sv.Ledger (units + 1) walked outcomes rs seen
        (Survey.entered sc u.offset).state.progress := h.entered
    have hunit := ends_foldVisits_ledger hall u u.visits hentered
    refine (ends_trackUnit (fun _ _ _ _ => id) (fun _ _ _ _ => id) hunit).bind ?_
    rintro _ sc' ⟨outcomes, rs, seen, rfl, h'⟩
    have hrest := ih h'
    rw [walk, List.flatMap_cons, ← walk, ← List.append_assoc, List.length_cons, ← Nat.add_assoc,
      Nat.add_right_comm]
    exact hrest

/-- At the end of an enumeration the counts are those of the whole walk. -/
theorem ends_records_ledger (sv : Survey) (hall : sv.names = none)
    (hfresh : sc.state.progress = {}) :
    Ends sv.records sc
      (fun rs sc' => ∃ outcomes seen,
        sv.Ledger sv.units.length (walk sv.units) outcomes rs seen sc'.state.progress)
      (fun _ _ => True) := by
  have hstart : sv.Ledger 0 [] [] [] [] sc.state.progress := by
    rw [hfresh]
    exact ⟨.nil, by simp [handsOn, firsts], by simp, rfl, rfl, rfl, rfl⟩
  have hfold : Ends (sv.foldRecords collect []) sc
      (fun out sc' => ∃ outcomes rs seen, out = .ok rs ∧
        sv.Ledger sv.units.length (walk sv.units) outcomes rs seen sc'.state.progress)
      (fun _ _ => True) := by
    refine (ends_foldUnits_ledger hall sv.units hstart).bind ?_
    rintro _ sc' ⟨outcomes, rs, seen, rfl, h⟩
    rw [Nat.zero_add, List.nil_append] at h
    show Ends (closeWalk >>= _) sc' _ _
    rw [ends_bind, ends_closeWalk]
    split
    · exact ⟨outcomes, rs, seen, rfl, h⟩
    · trivial
  refine hfold.bind ?_
  rintro _ sc' ⟨outcomes, rs, seen, rfl, h⟩
  exact ⟨outcomes, seen, h⟩

end Walk

theorem Ledger.length_definitions {units : Nat} {walked : List (CompilationUnit × Visit)}
    {outcomes : List (Option Record)} {rs : List Record} {seen : List Identity} {p : Progress}
    (h : sv.Ledger units walked outcomes rs seen p) :
    (definitions walked).length = rs.length + outcomes.countP Option.isNone +
      (sv.suppresses outcomes.reduceOption).length := by
  have hfound := sv.length_handsOn_add_length_suppresses outcomes.reduceOption
  have hsplit := List.length_eq_reduceOption_length_add_filter_none (l := outcomes)
  rw [← List.countP_eq_length_filter] at hsplit
  rw [h.gives.length_eq, hsplit, ← hfound, h.handedOn, Nat.add_right_comm]

/-- The accounts of an enumeration without names, from any scene in which nothing was counted yet.
Each definition of the walk has an outcome, in the order of the walk: a record, or none. The records
are handed on but for duplicates, and for the others a definition is counted as skipped. With the
duplicates that are suppressed these are all the definitions there are; without suppression every
definition is handed on or counted as skipped. Units, visits and records are counted one by one. An
enumeration that comes upon something too long to be told has no such end. -/
theorem records_accounted (info : Info) (platform : Platform) (tuning : Tuning) (sc : Scene State)
    (hwalk : ∀ u ∈ info.units, ∀ message, Visit.broken message ∉ u.visits)
    (hcache : 0 ≤ sc.state.cache.capacity) (hfresh : sc.state.progress = {}) :
    let sv := Survey.ofInfo info platform [] tuning
    let visits := walk info.units
    (∃ rs sc' outcomes,
      sv.records sc = .ok rs sc' ∧
      List.Forall₂ sv.Gives (definitions visits) outcomes ∧
      rs = sv.handsOn outcomes.reduceOption ∧
      sc'.state.progress =
        { units := info.units.length
          entries := visits.length
          records := rs.length
          skipped := outcomes.countP Option.isNone } ∧
      (definitions visits).length = rs.length + outcomes.countP Option.isNone +
        (sv.suppresses outcomes.reduceOption).length ∧
      (tuning.deduplicate = false →
        rs = outcomes.reduceOption ∧ sv.suppresses outcomes.reduceOption = [])) ∨
    sc.limited = true ∧ sv.records.result sc = .error .unwritable := by
  intro sv visits
  have hends := (sv.ends_records_ledger rfl hfresh).and (sv.sturdy_records hwalk sc hcache)
  cases hx : sv.records sc with
  | ok rs sc' =>
    obtain ⟨⟨outcomes, seen, h⟩, -⟩ := hends.ok hx
    refine .inl ⟨rs, sc', outcomes, rfl, h.gives, h.handedOn, ?_, h.length_definitions, ?_⟩
    · have hprogress : ∀ p : Progress, p = ⟨p.units, p.entries, p.records, p.skipped⟩ :=
        fun _ => rfl
      rw [hprogress sc'.state.progress, h.units_eq, h.entries_eq, h.records_eq, h.skipped_eq]
      rfl
    · intro hdeduplicate
      have hoff : sv.tuning.deduplicate = false := hdeduplicate
      refine ⟨?_, by simp [suppresses, hoff]⟩
      rw [h.handedOn, handsOn, hoff]
      rfl
  | error e sc' =>
    obtain ⟨-, rfl, hlimited⟩ := hends.error hx
    exact .inr ⟨hlimited, result_of_error hx⟩

def emptyRecord : Site where
  tag := some .structureType
  offset := 109
  attributes := [(.name, { value := .text "E" }), (.byteSize, { value := .int 1 })]

/-- A program in which a structure comes twice; after the second there is a null entry and a
structure without members. -/
def crowdedInfo : Info where
  units := [{ trees := [treeOf paddedRecord, treeOf numberType, treeOf Resolver.byteType] },
    { offset := 100
      trees := [treeOf { paddedRecord with offset := 105 }, .node .null default [],
        treeOf emptyRecord] }]

theorem not_broken_of_any {visits : List Visit}
    (h : (visits.any fun v => v matches .broken _) = false) :
    ∀ message, Visit.broken message ∉ visits := by
  intro message hmem
  have := List.any_eq_false.1 h _ hmem
  simp at this

/-- Of the three structures one is handed on, one is skipped and one is a duplicate. -/
theorem records_crowdedInfo :
    ∃ (rs : List Record) (sc' : Scene State) (outcomes : List (Option Record)),
      (Survey.ofInfo crowdedInfo {} [] {}).records
          (Survey.start (.ofInfo crowdedInfo {} [] {}) true) = .ok rs sc' ∧
      sc'.state.progress = { units := 2, entries := 14, records := 1, skipped := 1 } ∧
      (definitions (walk crowdedInfo.units)).length = 3 ∧
      rs.length = 1 ∧ outcomes.countP Option.isNone = 1 ∧
      (Survey.suppresses (.ofInfo crowdedInfo {} [] {}) outcomes.reduceOption).length = 1 := by
  have hwalk : ∀ u ∈ crowdedInfo.units, ∀ message, Visit.broken message ∉ u.visits := by
    simp only [crowdedInfo, List.forall_mem_cons]
    exact ⟨not_broken_of_any (by decide +kernel), not_broken_of_any (by decide +kernel), by simp⟩
  have hprogress : ((Survey.ofInfo crowdedInfo {} [] {}).records.after
      (Survey.start (.ofInfo crowdedInfo {} [] {}) true)).state.progress =
      { units := 2, entries := 14, records := 1, skipped := 1 } := by decide +kernel
  have hlength : (definitions (walk crowdedInfo.units)).length = 3 := by decide +kernel
  have hends : ((Survey.ofInfo crowdedInfo {} [] {}).records.result
      (Survey.start (.ofInfo crowdedInfo {} [] {}) true)).map List.length = .ok 1 := by
    decide +kernel
  rcases records_accounted crowdedInfo {} {} (Survey.start (.ofInfo crowdedInfo {} [] {}) true)
    hwalk (by decide) rfl with
    ⟨rs, sc', outcomes, hrs, -, -, hcounts, hdefinitions, -⟩ | ⟨-, hfails⟩
  · rw [Action.after, hrs] at hprogress
    have hsame : sc'.state.progress = _ := hprogress
    rw [hsame] at hcounts
    simp only [Progress.mk.injEq] at hcounts
    exact ⟨rs, sc', outcomes, hrs, hsame, hlength, by omega, by omega, by omega⟩
  · rw [hfails] at hends
    cases hends

end Survey

end PaddingAudit
