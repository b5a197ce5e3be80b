import Mathlib.Data.List.Pairwise
import PaddingAudit.Proofs.Duplicates
import PaddingAudit.Proofs.Selection

/-!
# What tells records apart

A survey that suppresses duplicates tells records apart by their names and their whole places, which
have a column. So of two records of one name in one line both are handed on if their columns differ,
as they do where one compiler writes columns and another does not.

This holds of everything that is handed on, also before a walk fails or is interrupted. For this a
walk is seen as a sequence of records and an end, whatever is done with the records.
-/

namespace PaddingAudit.Survey

open Debug PaddingAudit.Action

variable {sv : Survey} {u : CompilationUnit} {visit : Visit} {visits : List Visit}
  {units : List CompilationUnit} {seen seen' : List Identity} {sc sc' t : Scene State}
  {rs rs' : List Record} {r : Record} {e : Failure}

/-- How a walk stops that is not interrupted: it fails, or it leaves a scene behind with the
identities that were seen. -/
abbrev Stop := Except Failure (List Identity × Scene State)

/-- What a walk comes to whose records make `value` of what is done with them: an interruption is
the last that is heard of the walk, and otherwise it stops. -/
def ComesTo {ι β : Type} (walk : Action Failure State (Except ι (List Identity × β)))
    (sc : Scene State) : (value : Except ι β) → Stop → Prop
  | .error i, _ => walk.result sc = .ok (.error i)
  | .ok next, .ok (seen, sc') => walk sc = .ok (.ok (seen, next)) sc'
  | .ok _, .error e => walk.result sc = .error e

theorem ComesTo.congr {ι β : Type}
    {walk walk' : Action Failure State (Except ι (List Identity × β))} {value : Except ι β}
    {stop : Stop} (h : walk' sc' = walk sc) (hw : ComesTo walk sc value stop) :
    ComesTo walk' sc' value stop := by
  have hresult : walk'.result sc' = walk.result sc := by
    rw [result, h, result]
  cases value with
  | error i => exact hresult.trans hw
  | ok next =>
    cases stop with
    | ok last => exact h.trans hw
    | error e => exact hresult.trans hw

/-- The walk through the visits of a unit hands on `rs`, one after the other, and stops. -/
def HandsVisits (sv : Survey) (u : CompilationUnit) (visits : List Visit) (seen : List Identity)
    (sc : Scene State) (rs : List Record) (stop : Stop) : Prop :=
  ∀ (ι β : Type) (step : β → Record → Except ι β) (b : β),
    ComesTo (sv.foldVisits (fun b r => pure (step b r)) u visits seen b) sc (rs.foldlM step b) stop

/-- The walk through units hands on `rs`, one after the other, and stops. -/
def HandsUnits (sv : Survey) (units : List CompilationUnit) (seen : List Identity)
    (sc : Scene State) (rs : List Record) (stop : Stop) : Prop :=
  ∀ (ι β : Type) (step : β → Record → Except ι β) (b : β),
    ComesTo (sv.foldUnits (fun b r => pure (step b r)) units seen b) sc (rs.foldlM step b) stop

variable {stop : Stop}

namespace HandsVisits

theorem nil : sv.HandsVisits u [] seen sc [] (.ok (seen, sc)) :=
  fun _ _ _ _ => rfl

theorem fail (hx : sv.recordAt u visit sc = .error e t) :
    sv.HandsVisits u (visit :: visits) seen sc [] (.error e) :=
  fun _ _ _ _ => result_of_error (bind_error hx _)

/-- Nothing is found at a visit. -/
theorem pass (hx : sv.recordAt u visit sc = .ok none t)
    (h : sv.HandsVisits u visits seen t rs stop) :
    sv.HandsVisits u (visit :: visits) seen sc rs stop :=
  fun ι β step b => (h ι β step b).congr (bind_ok hx _)

/-- The record at a visit is a duplicate. -/
theorem suppress (hx : sv.recordAt u visit sc = .ok (some r) t) (hr : sv.isRepeated seen r = true)
    (h : sv.HandsVisits u visits seen t rs stop) :
    sv.HandsVisits u (visit :: visits) seen sc rs stop := by
  intro ι β step b
  refine (h ι β step b).congr ((bind_ok hx _).trans ?_)
  simp only [hr, if_true]

/-- The record at a visit is handed on, and then the others if this does not interrupt. -/
theorem cons (hx : sv.recordAt u visit sc = .ok (some r) t) (hr : sv.isRepeated seen r = false)
    (h : sv.HandsVisits u visits (identity r :: seen) (recorded t) rs stop) :
    sv.HandsVisits u (visit :: visits) seen sc (r :: rs) stop := by
  intro ι β step b
  rw [List.foldlM_cons]
  cases hstep : step b r with
  | error i =>
    have hwalk : sv.foldVisits (fun b r => pure (step b r)) u (visit :: visits) seen b sc =
        .ok (.error i) (recorded t) := by
      refine (bind_ok hx _).trans ?_
      simp only [hr, Bool.false_eq_true, if_false, hstep]
      rfl
    exact result_of_ok hwalk
  | ok next =>
    refine (h ι β step next).congr ((bind_ok hx _).trans ?_)
    simp only [hr, Bool.false_eq_true, if_false, hstep]
    rfl

end HandsVisits

/-- The scene in which the work on a unit is done that started in `sc` and left `t` behind. -/
def left (sc t : Scene State) : Scene State :=
  t.note [.unitDone (sc.state.progress.units + 1)
    (t.state.progress.records - sc.state.progress.records)]

theorem trackUnit_of_done {α β : Type} {work : Action Failure State (Except α β)} {offset : Int}
    {b : β} (h : work (entered sc offset) = .ok (.ok b) t) :
    Progress.trackUnit offset work sc = .ok (.ok b) (left sc t) := by
  have hcurrent (s : Scene State) :
      (Progress.current : Action Failure State Progress) s = .ok s.state.progress s := rfl
  have hcount : (Progress.update fun p => { p with units := sc.state.progress.units + 1 } :
      Action Failure State Unit) sc = .ok () { sc with state := { sc.state with
        progress := { sc.state.progress with units := sc.state.progress.units + 1 } } } := rfl
  have hwork (event : Failure → Option Event) :
      work.logFailure event (entered sc offset) = .ok (.ok b) t := by
    rw [logFailure, h]
  unfold Progress.trackUnit
  rw [bind_ok (hcurrent sc), bind_ok hcount, bind_ok (log_apply _ _)]
  refine (bind_ok (hwork _) _).trans ?_
  dsimp only
  rw [bind_ok (hcurrent t), bind_ok (log_apply _ _)]
  rfl

namespace HandsUnits

theorem nil : sv.HandsUnits [] seen sc [] (.ok (seen, sc)) :=
  fun _ _ _ _ => rfl

/-- An interruption at a unit interrupts the walk. -/
theorem interrupted {ι β : Type} {step : β → Record → Except ι β} {b : β} {i : ι}
    (h : (sv.foldVisits (fun b r => pure (step b r)) u u.visits seen b).result
      (entered sc u.offset) = .ok (.error i)) :
    (sv.foldUnits (fun b r => pure (step b r)) (u :: units) seen b).result sc =
      .ok (.error i) := by
  obtain ⟨t, ht⟩ := ok_of_result h
  obtain ⟨es, htrack⟩ := trackUnit_of_ok ht
  exact result_of_ok (bind_ok htrack _)

theorem fail (h : sv.HandsVisits u u.visits seen (entered sc u.offset) rs (.error e)) :
    sv.HandsUnits (u :: units) seen sc rs (.error e) := by
  intro ι β step b
  have hunit := h ι β step b
  cases hfold : rs.foldlM step b with
  | error i =>
    rw [hfold] at hunit
    exact interrupted hunit
  | ok next =>
    rw [hfold] at hunit
    obtain ⟨t, ht⟩ := error_of_result hunit
    obtain ⟨t', htrack⟩ := trackUnit_of_error ht
    exact result_of_error (bind_error htrack _)

theorem cons (h : sv.HandsVisits u u.visits seen (entered sc u.offset) rs (.ok (seen', t)))
    (hrest : sv.HandsUnits units seen' (left sc t) rs' stop) :
    sv.HandsUnits (u :: units) seen sc (rs ++ rs') stop := by
  intro ι β step b
  have hunit := h ι β step b
  rw [List.foldlM_append]
  cases hfold : rs.foldlM step b with
  | error i =>
    rw [hfold] at hunit
    exact interrupted hunit
  | ok next =>
    rw [hfold] at hunit
    exact (hrest ι β step next).congr (bind_ok (trackUnit_of_done hunit) _)

end HandsUnits

/-- The failure that a survey ends with, if it does: its walk fails, or the figures of the cache
cannot be told when the walk is done. -/
def failure? : Stop → Option Failure
  | .ok (_, sc) => if closable sc then none else some .unwritable
  | .error e => some e

theorem handOver_eq {ι β : Type} (step : β → Record → Except ι β) (failure? : Option Failure)
    (rs : List Record) (b : β) :
    handOver step failure? rs b =
      match rs.foldlM step b with
      | .error i => .ok (.error i)
      | .ok next => failure?.elim (.ok (.ok next)) .error := by
  induction rs generalizing b with
  | nil => rfl
  | cons r rs ih =>
    rw [handOver, List.foldlM_cons]
    cases step b r with
    | error i => rfl
    | ok next => exact ih next

/-- A survey yields what its walk hands on. -/
theorem HandsUnits.yields (h : sv.HandsUnits sv.units [] sc rs stop) :
    sv.Yields sc rs (failure? stop) := by
  apply yields_of_result
  intro ι β step b
  have hwalk := h ι β step b
  rw [handOver_eq]
  cases hfold : rs.foldlM step b with
  | error i =>
    rw [hfold] at hwalk
    obtain ⟨t, ht⟩ := ok_of_result hwalk
    exact result_of_ok (bind_ok ht _)
  | ok next =>
    rw [hfold] at hwalk
    cases stop with
    | ok last =>
      obtain ⟨seen, t⟩ := last
      refine Ends.result_eq ?_
      rw [foldRecords, ends_bind]
      apply Ends.of_ok hwalk
      show Ends (closeWalk >>= _) t _ _
      rw [ends_bind, ends_closeWalk, failure?]
      cases closable t <;> rfl
    | error e =>
      obtain ⟨t, ht⟩ := error_of_result hwalk
      exact result_of_error (bind_error ht _)

/-! ### With and without duplicates -/

/-- How two walks stop that have handed on `kept` and `all`: side by side, or with one failure. -/
def Abreast (kept all : List Record) (stop stop' : Stop) : Prop :=
  (∃ seen seen' s t, stop = .ok (seen, s) ∧ stop' = .ok (seen', t) ∧ Matched kept all seen s t) ∨
    ∃ e, stop = .error e ∧ stop' = .error e ∧ kept = firsts all

variable {kept all : List Record}

theorem handsVisits_abreast (sv : Survey) (u : CompilationUnit) (visits : List Visit)
    (seen' : List Identity) (h : Matched kept all seen sc sc') :
    ∃ more more' stop stop',
      (sv.deduplicating true).HandsVisits u visits seen sc more stop ∧
      (sv.deduplicating false).HandsVisits u visits seen' sc' more' stop' ∧
      Abreast (kept ++ more) (all ++ more') stop stop' := by
  induction visits generalizing kept all seen seen' sc sc' with
  | nil =>
    refine ⟨[], [], _, _, .nil, .nil, .inl ⟨seen, seen', sc, sc', rfl, rfl, ?_⟩⟩
    rw [List.append_nil, List.append_nil]
    exact h
  | cons visit visits ih =>
    rcases (respects_recordAt sv u visit sc sc' h.alike).cases with
      ⟨r?, s, _, t, hs, ht, rfl, hst⟩ | ⟨e, s, t, hs, ht⟩
    · have hmatched : Matched kept all seen s t := { h with alike := hst }
      cases r? with
      | none =>
        obtain ⟨more, more', stop, stop', honce, halways, habreast⟩ := ih seen' hmatched
        exact ⟨more, more', stop, stop', .pass hs honce, .pass ht halways, habreast⟩
      | some r =>
        have hall : (sv.deduplicating false).isRepeated seen' r = false := rfl
        by_cases hr : identity r ∈ seen
        · have hrepeated : (sv.deduplicating true).isRepeated seen r = true := by
            simpa [isRepeated, deduplicating] using hr
          obtain ⟨more, more', stop, stop', honce, halways, habreast⟩ :=
            ih (identity r :: seen') (hmatched.repeated hr)
          refine ⟨more, r :: more', stop, stop', .suppress hs hrepeated honce,
            .cons ht hall halways, ?_⟩
          rwa [List.append_cons]
        · have hnew : (sv.deduplicating true).isRepeated seen r = false := by
            simpa [isRepeated, deduplicating] using hr
          obtain ⟨more, more', stop, stop', honce, halways, habreast⟩ :=
            ih (identity r :: seen') (hmatched.new hr)
          refine ⟨r :: more, r :: more', stop, stop', .cons hs hnew honce,
            .cons ht hall halways, ?_⟩
          rwa [List.append_cons kept, List.append_cons all]
    · refine ⟨[], [], .error e, .error e, .fail hs, .fail ht, .inr ⟨e, rfl, rfl, ?_⟩⟩
      rw [List.append_nil, List.append_nil]
      exact h.kept_eq

theorem handsUnits_abreast (sv : Survey) (units : List CompilationUnit) (seen' : List Identity)
    (h : Matched kept all seen sc sc') :
    ∃ more more' stop stop',
      (sv.deduplicating true).HandsUnits units seen sc more stop ∧
      (sv.deduplicating false).HandsUnits units seen' sc' more' stop' ∧
      Abreast (kept ++ more) (all ++ more') stop stop' := by
  induction units generalizing kept all seen seen' sc sc' with
  | nil =>
    refine ⟨[], [], _, _, .nil, .nil, .inl ⟨seen, seen', sc, sc', rfl, rfl, ?_⟩⟩
    rw [List.append_nil, List.append_nil]
    exact h
  | cons u units ih =>
    obtain ⟨more, more', stop, stop', honce, halways, habreast⟩ :=
      handsVisits_abreast sv u u.visits seen' (h.entered u.offset)
    rcases habreast with ⟨seen₁, seen₁', s, t, rfl, rfl, hst⟩ | ⟨e, rfl, rfl, hkept⟩
    · obtain ⟨rest, rest', last, last', honce', halways', habreast⟩ :=
        ih seen₁' (hst.note _ _)
      refine ⟨more ++ rest, more' ++ rest', last, last', .cons honce honce',
        .cons halways halways', ?_⟩
      rwa [← List.append_assoc, ← List.append_assoc]
    · exact ⟨more, more', _, _, .fail honce, .fail halways, .inr ⟨e, rfl, rfl, hkept⟩⟩

/-- With suppression of duplicates a survey yields the first records of those that it yields
without, and ends as it does. -/
theorem exists_yields_firsts (sv : Survey) (limited : Bool) :
    ∃ all failure?,
      (sv.deduplicating true).Yields (sv.start limited) (firsts all) failure? ∧
      (sv.deduplicating false).Yields (sv.start limited) all failure? := by
  have hstart : Matched [] [] [] (sv.start limited) (sv.start limited) :=
    ⟨⟨⟨rfl, rfl, rfl, rfl, rfl, rfl, rfl⟩, rfl⟩, rfl, fun i => Iff.rfl⟩
  obtain ⟨kept, all, stop, stop', honce, halways, habreast⟩ :=
    handsUnits_abreast sv sv.units [] hstart
  rw [List.nil_append, List.nil_append] at habreast
  have hyields := HandsUnits.yields honce
  have hyields' := HandsUnits.yields halways
  rcases habreast with ⟨seen, seen', s, t, rfl, rfl, hst⟩ | ⟨e, rfl, rfl, rfl⟩
  · rw [hst.kept_eq, failure?, closable_congr hst.alike] at hyields
    exact ⟨all, _, hyields, hyields'⟩
  · exact ⟨all, some e, hyields, hyields'⟩

/-! ### Records in one line -/

/-- Records of one name that are declared in the same line of the same file. -/
def SameLine (a b : Record) : Prop :=
  a.name = b.name ∧ ∃ l m, a.location = some l ∧ b.location = some m ∧
    l.file = m.file ∧ l.line = m.line

def column? (r : Record) : Option Int :=
  r.location.map Location.column

theorem SameLine.symm {a b : Record} (h : SameLine a b) : SameLine b a := by
  obtain ⟨hname, l, m, hl, hm, hfile, hline⟩ := h
  exact ⟨hname.symm, m, l, hm, hl, hfile.symm, hline.symm⟩

/-- Whether records share a line depends on their identities only. -/
theorem SameLine.congr {a b a' b' : Record} (h : SameLine a b) (ha : identity a' = identity a)
    (hb : identity b' = identity b) : SameLine a' b' := by
  obtain ⟨hname, l, m, hl, hm, hsame⟩ := h
  simp only [identity, Prod.mk.injEq] at ha hb
  refine ⟨?_, l, m, ?_, ?_, hsame⟩
  · rw [ha.1, hb.1, hname]
  · rw [ha.2, hl]
  · rw [hb.2, hm]

/-- Records in one line are told apart by their columns. -/
theorem SameLine.identity_eq_iff {a b : Record} (h : SameLine a b) :
    identity a = identity b ↔ column? a = column? b := by
  obtain ⟨hname, ⟨file, line, column⟩, ⟨file', line', column'⟩, hl, hm, hfile, hline⟩ := h
  simp only at hfile hline
  simp [identity, column?, hname, hl, hm, hfile, hline]

theorem mem_of_mem_firsts {r : Record} {rs : List Record} (h : r ∈ firsts rs) : r ∈ rs := by
  obtain ⟨x, hx, rfl⟩ := List.mem_map.1 h
  have hmem : x.1 ∈ rs.zipIdx.map Prod.fst := List.mem_map_of_mem (List.mem_filter.1 hx).1
  rwa [List.zipIdx_map_fst] at hmem

/-- No line has two of the first records exactly if no line has records in several columns. -/
theorem pairwise_firsts_iff (rs : List Record) :
    (firsts rs).Pairwise (fun a b => ¬ SameLine a b) ↔
      ∀ a ∈ rs, ∀ b ∈ rs, SameLine a b → column? a = column? b := by
  have hnodup : (firsts rs).Pairwise fun a b => identity a ≠ identity b :=
    List.pairwise_map.1 (nodup_identity_firsts rs)
  constructor
  · intro h a ha b hb hab
    -- Both are in `firsts`, by others of the same identities.
    have hfirst : ∀ c ∈ rs, ∃ c' ∈ firsts rs, identity c' = identity c := by
      intro c hc
      exact List.mem_map.1 (mem_identity_firsts.2 (List.mem_map_of_mem hc))
    obtain ⟨a', ha', hida⟩ := hfirst a ha
    obtain ⟨b', hb', hidb⟩ := hfirst b hb
    rw [← hab.identity_eq_iff]
    by_contra hne
    have hne' : a' ≠ b' := by
      rintro rfl
      exact hne (hida.symm.trans hidb)
    have hsymm : Std.Symm fun c d => ¬ SameLine c d := ⟨fun c d hcd hdc => hcd hdc.symm⟩
    exact h.forall ha' hb' hne' (hab.congr hida hidb)
  · intro h
    refine hnodup.imp_of_mem fun {a b} ha hb hne hab => hne ?_
    rw [hab.identity_eq_iff]
    exact h a (mem_of_mem_firsts ha) b (mem_of_mem_firsts hb) hab

/-- What suppression of duplicates comes to for records in one line. A survey yields a sequence of
records, whether its walk comes to an end, fails or is interrupted. With suppression these are the
first ones of each identity: two of them of one name in one line of a file have different columns.
So there are no two such records exactly if, without suppression, all records of one name in one
line have the same column. -/
theorem yields_sameLine (info : Info) (platform : Platform) (names : List String) (tuning : Tuning)
    (limited : Bool) :
    let once := Survey.ofInfo info platform names { tuning with deduplicate := true }
    let always := Survey.ofInfo info platform names { tuning with deduplicate := false }
    ∃ kept all failure?,
      once.Yields (once.start limited) kept failure? ∧
      always.Yields (always.start limited) all failure? ∧
      kept = firsts all ∧
      (kept.Pairwise fun a b => SameLine a b → column? a ≠ column? b) ∧
      ((kept.Pairwise fun a b => ¬ SameLine a b) ↔
        ∀ a ∈ all, ∀ b ∈ all, SameLine a b → column? a = column? b) := by
  intro once always
  obtain ⟨all, failure?, honce, halways⟩ :=
    exists_yields_firsts (.ofInfo info platform names tuning) limited
  refine ⟨firsts all, all, failure?, honce, halways, rfl, ?_, pairwise_firsts_iff all⟩
  refine (List.pairwise_map.1 (nodup_identity_firsts all)).imp fun {a b} hne hab => ?_
  rw [Ne, ← hab.identity_eq_iff]
  exact hne

/-- A structure from the third line of a header. -/
def headerRecord (offset : Int) (column : List (Key × Attribute)) : Site where
  tag := some .structureType
  offset := offset
  attributes := [(.name, { value := .text "S" }), (.byteSize, { value := .int 12 }),
    (.declFile, { value := .int 1 }), (.declLine, { value := .int 3 })] ++ column
  children := [Resolver.memberOf 3, Resolver.memberOf 2, Resolver.memberOf 3]

def headerFiles : LineProgram :=
  .present 4 [] [(.text "s.h", 0)]

/-- A program with two units that have a structure from one header. The compiler of the second unit
writes no columns. -/
def headerInfo : Info where
  units := [
    { trees := [treeOf (headerRecord 20 [(.declColumn, { value := .int 8 })]), treeOf numberType,
        treeOf Resolver.byteType]
      lineProgram := headerFiles },
    { offset := 100, trees := [treeOf (headerRecord 120 [])], lineProgram := headerFiles }]

/-- The record of the structure, from a unit and with a column. -/
def headerRecordFound (unit : String) (column : Int) : Record where
  name := "S"
  fields := [{ name := "(anonymous@0)", size := 1, alignment := 1 },
    { name := "(anonymous@0)", size := 4, alignment := 4 },
    { name := "(anonymous@0)", size := 1, alignment := 1 }]
  actualSize := 12
  alignment := 4
  location := some { file := "s.h", line := 3, column := column }
  unit := unit

/-- The structure is handed on twice, although duplicates are suppressed. -/
theorem records_headerInfo :
    (Survey.ofInfo headerInfo {} [] { deduplicate := true }).records.result
        (Survey.start (.ofInfo headerInfo {} [] { deduplicate := true }) true) =
      .ok [headerRecordFound "cu@0x0" 8, headerRecordFound "cu@0x64" 0] ∧
    SameLine (headerRecordFound "cu@0x0" 8) (headerRecordFound "cu@0x64" 0) := by
  refine ⟨by decide +kernel, rfl, _, _, rfl, rfl, rfl, rfl⟩

end PaddingAudit.Survey
