import Mathlib.Data.List.Induction
import Mathlib.Data.List.Nodup
import PaddingAudit.Proofs.Comparison
import PaddingAudit.Proofs.Contract

/-!
# Suppression of duplicates

A survey that reports no record twice hands on the first record of each identity, out of all records
that a survey without this choice hands on. The two walk side by side: what they find at a visit
does not depend on the records so far, and so they remember the same layouts and count the same
units, entries and skipped definitions.
-/

namespace PaddingAudit.Survey

open Debug PaddingAudit.Action

/-- The records whose identity no earlier one has, in order. -/
def firsts (rs : List Record) : List Record :=
  (rs.zipIdx.filter fun x => decide (identity x.1 ∉ (rs.take x.2).map identity)).map Prod.fst

theorem firsts_snoc (rs : List Record) (r : Record) :
    firsts (rs ++ [r]) =
      if identity r ∈ rs.map identity then firsts rs else firsts rs ++ [r] := by
  have hbefore : (rs.zipIdx.filter fun x =>
      decide (identity x.1 ∉ ((rs ++ [r]).take x.2).map identity)) =
      rs.zipIdx.filter fun x => decide (identity x.1 ∉ (rs.take x.2).map identity) := by
    refine List.filter_congr fun x hx => ?_
    have hlt : x.2 < rs.length := by simpa using List.snd_lt_of_mem_zipIdx hx
    rw [List.take_append_of_le_length (Nat.le_of_lt hlt)]
  unfold firsts
  rw [List.zipIdx_append, List.filter_append, List.map_append, hbefore]
  split
  · rename_i hmem
    simp [hmem]
  · rename_i hmem
    simp [hmem]

@[simp]
theorem mem_identity_firsts {rs : List Record} {i : Identity} :
    i ∈ (firsts rs).map identity ↔ i ∈ rs.map identity := by
  induction rs using List.reverseRecOn with
  | nil => rfl
  | append_singleton rs r ih =>
    rw [firsts_snoc]
    split
    · rename_i hmem
      rw [ih, List.map_append, List.mem_append]
      constructor
      · exact .inl
      · rintro (hi | hi)
        · exact hi
        · rwa [List.mem_singleton.1 hi]
    · rw [List.map_append, List.map_append, List.mem_append, List.mem_append, ih]

theorem nodup_identity_firsts (rs : List Record) : ((firsts rs).map identity).Nodup := by
  induction rs using List.reverseRecOn with
  | nil => exact List.nodup_nil
  | append_singleton rs r ih =>
    rw [firsts_snoc]
    split
    · exact ih
    · rename_i hmem
      rw [List.map_append, List.nodup_append]
      refine ⟨ih, by simp, ?_⟩
      intro i hi j hj hij
      rw [mem_identity_firsts, hij, List.mem_singleton.1 hj] at hi
      exact hmem hi

/-! ### Two walks -/

/-- The same survey, with or without suppression of duplicates. -/
def deduplicating (sv : Survey) (deduplicate : Bool) : Survey :=
  { sv with tuning := { sv.tuning with deduplicate := deduplicate } }

def collect (rs : List Record) (r : Record) : Action Failure State (Except Empty (List Record)) :=
  pure (.ok (rs ++ [r]))

/-- Where two walks are that have handed on `kept` and `all`. -/
structure Matched (kept all : List Record) (seen : List Identity) (sc sc' : Scene State) :
    Prop where
  alike : Alike (Twin kept.length all.length) sc sc'
  kept_eq : kept = firsts all
  seen_iff : ∀ i, i ∈ seen ↔ i ∈ all.map identity

/-- How a part of two walks comes out. -/
def Paired (out : Except Empty (List Identity × List Record)) (sc : Scene State)
    (out' : Except Empty (List Identity × List Record)) (sc' : Scene State) : Prop :=
  ∃ kept all seen seen', out = .ok (seen, kept) ∧ out' = .ok (seen', all) ∧
    Matched kept all seen sc sc'

variable {kept all : List Record} {seen : List Identity} {sc sc' : Scene State}
  {r : Record}

/-- A scene in which one more record is counted. -/
def recorded (sc : Scene State) : Scene State :=
  { sc with state := { sc.state with
      progress := { sc.state.progress with records := sc.state.progress.records + 1 } } }

namespace Matched

theorem note (h : Matched kept all seen sc sc') (es fs : List Event) :
    Matched kept all seen (sc.note es) (sc'.note fs) :=
  { h with alike := h.alike.note es fs }

theorem entered (h : Matched kept all seen sc sc') (offset : Int) :
    Matched kept all seen (entered sc offset) (entered sc' offset) := by
  refine { h with alike := ⟨{ h.alike.state with units := ?_ }, h.alike.limited_eq⟩ }
  exact congrArg (· + 1) h.alike.state.units

/-- A record that was seen before is handed on by one of the walks only. -/
theorem repeated (h : Matched kept all seen sc sc') (hr : identity r ∈ seen) :
    Matched kept (all ++ [r]) seen sc (recorded sc') := by
  rw [h.seen_iff] at hr
  refine ⟨⟨{ h.alike.state with records_right := ?_ }, h.alike.limited_eq⟩, ?_, fun i => ?_⟩
  · simp [recorded, h.alike.state.records_right]
  · rw [firsts_snoc, if_pos hr, h.kept_eq]
  · rw [h.seen_iff, List.map_append, List.mem_append, List.map_singleton, List.mem_singleton]
    constructor
    · exact .inl
    · rintro (hi | rfl)
      · exact hi
      · exact hr

theorem new (h : Matched kept all seen sc sc') (hr : identity r ∉ seen) :
    Matched (kept ++ [r]) (all ++ [r]) (identity r :: seen) (recorded sc) (recorded sc') := by
  rw [h.seen_iff] at hr
  refine ⟨⟨{ h.alike.state with records_left := ?_, records_right := ?_ }, h.alike.limited_eq⟩,
    ?_, fun i => ?_⟩
  · simp [recorded, h.alike.state.records_left]
  · simp [recorded, h.alike.state.records_right]
  · rw [firsts_snoc, if_neg hr, h.kept_eq]
  · rw [List.mem_cons, h.seen_iff, List.map_append, List.mem_append, List.map_singleton,
      List.mem_singleton, or_comm]

end Matched

theorem together_foldVisits (sv : Survey) (u : CompilationUnit) (visits : List Visit)
    (seen' : List Identity) (h : Matched kept all seen sc sc') :
    Together ((sv.deduplicating true).foldVisits collect u visits seen kept)
      ((sv.deduplicating false).foldVisits collect u visits seen' all) sc sc' Paired := by
  induction visits generalizing kept all seen seen' sc sc' with
  | nil => exact .of_ok rfl rfl ⟨kept, all, seen, seen', rfl, rfl, h⟩
  | cons visit visits ih =>
    -- Neither survey looks at the choice when it visits an entry.
    refine (respects_recordAt sv u visit sc sc' h.alike).bind ?_
    rintro (_ | r) s _ t ⟨rfl, hst⟩
    · exact ih seen' { h with alike := hst }
    have hmatched : Matched kept all seen s t := { h with alike := hst }
    have hall : (sv.deduplicating false).isRepeated seen' r = false := rfl
    by_cases hr : identity r ∈ seen
    · have hrepeated : (sv.deduplicating true).isRepeated seen r = true := by
        simpa [isRepeated, deduplicating] using hr
      simp only [hrepeated, hall, if_true, Bool.false_eq_true, if_false]
      exact .congr rfl rfl (ih _ (hmatched.repeated hr))
    · have hnew : (sv.deduplicating true).isRepeated seen r = false := by
        simpa [isRepeated, deduplicating] using hr
      simp only [hnew, hall, Bool.false_eq_true, if_false]
      exact .congr rfl rfl (ih _ (hmatched.new hr))

theorem together_foldUnits (sv : Survey) (units : List CompilationUnit) (seen' : List Identity)
    (h : Matched kept all seen sc sc') :
    Together ((sv.deduplicating true).foldUnits collect units seen kept)
      ((sv.deduplicating false).foldUnits collect units seen' all) sc sc' Paired := by
  induction units generalizing kept all seen seen' sc sc' with
  | nil => exact .of_ok rfl rfl ⟨kept, all, seen, seen', rfl, rfl, h⟩
  | cons u units ih =>
    have hunit := together_foldVisits sv u u.visits seen' (h.entered u.offset)
    refine (together_trackUnit ?_ hunit).bind ?_
    · rintro _ s _ t es fs ⟨kept, all, seen, seen', rfl, rfl, hst⟩
      exact ⟨kept, all, seen, seen', rfl, rfl, hst.note es fs⟩
    · rintro _ s _ t ⟨kept, all, seen, seen', rfl, rfl, hst⟩
      exact ih seen' hst

/-- The two enumerations from the start. -/
theorem together_records (sv : Survey) (limited : Bool) :
    Together (sv.deduplicating true).records (sv.deduplicating false).records (sv.start limited)
      (sv.start limited) fun kept s all t =>
        kept = firsts all ∧ Twin kept.length all.length s.state t.state := by
  have hstart : Matched [] [] [] (sv.start limited) (sv.start limited) :=
    ⟨⟨⟨rfl, rfl, rfl, rfl, rfl, rfl, rfl⟩, rfl⟩, rfl, fun i => Iff.rfl⟩
  have hfold : Together ((sv.deduplicating true).foldRecords collect [])
      ((sv.deduplicating false).foldRecords collect []) (sv.start limited) (sv.start limited)
      fun out s out' t => ∃ kept all seen, out = .ok kept ∧ out' = .ok all ∧
        Matched kept all seen s t := by
    refine (together_foldUnits sv sv.units [] hstart).bind ?_
    rintro _ s _ t ⟨kept, all, seen, seen', rfl, rfl, hst⟩
    refine (together_closeWalk hst.alike).bind ?_
    rintro _ _ _ _ ⟨rfl, rfl⟩
    exact .of_ok rfl rfl ⟨kept, all, seen, rfl, rfl, (hst.note _ _).note _ _⟩
  refine hfold.bind ?_
  rintro _ s _ t ⟨kept, all, seen, rfl, rfl, hst⟩
  exact .of_ok rfl rfl ⟨hst.kept_eq, hst.alike.state⟩

/-- An enumeration fails for the limit on decimal text only, if all entries can be read. -/
theorem sturdy_records (sv : Survey)
    (hwalk : ∀ u ∈ sv.units, ∀ message, Visit.broken message ∉ u.visits) :
    Sturdy sv.records := by
  intro sc hc
  have hfold : Ends (sv.foldRecords collect []) sc
      (fun _ sc' => 0 ≤ sc'.state.cache.capacity ∧ sc'.limited = sc.limited)
      (fun e _ => e = .unwritable ∧ sc.limited = true) := by
    refine ends_foldRecords (F := fun _ _ => True) (fun _ _ _ _ => id) (fun _ _ _ _ => id)
      (fun _ _ _ => id) ?_ (fun _ _ _ h _ => h) ?_ ⟨hc, rfl⟩
    · intro u hu visit hvisit rs sc' ⟨hc', hl⟩
      have hsound : ∀ message, visit ≠ .broken message := by
        rintro message rfl
        exact hwalk u hu message hvisit
      have hsturdy := (regular_sturdy sv).recordAt (u := u) trivial hsound sc' hc'
      rw [hl] at hsturdy
      exact hsturdy.imp (fun _ _ h => ⟨h, fun _ _ => trivial⟩) fun _ _ h => h
    · rintro rs sc' ⟨-, hl⟩ hclosable
      rw [← hl]
      simp_all [closable]
  refine hfold.bind ?_
  rintro (impossible | rs) sc' h
  · exact impossible.elim
  · exact h

/-- With suppression of duplicates an enumeration hands on the first record of each identity out of
those that are handed on without: none twice, and none is lost. Both leave the same layouts and file
tables behind, with the same figures, and the same counts but for the records that were handed on.
If one of the enumerations comes upon something that is too long to be told, so does the other. -/
theorem records_deduplicate (info : Info) (platform : Platform) (names : List String)
    (tuning : Tuning) (limited : Bool)
    (hwalk : ∀ u ∈ info.units, ∀ message, Visit.broken message ∉ u.visits)
    (hcache : 0 ≤ tuning.cacheSize) :
    let once := Survey.ofInfo info platform names { tuning with deduplicate := true }
    let always := Survey.ofInfo info platform names { tuning with deduplicate := false }
    (∃ kept all sc sc',
      once.records (once.start limited) = .ok kept sc ∧
      always.records (always.start limited) = .ok all sc' ∧
      kept = firsts all ∧ (kept.map identity).Nodup ∧
      (∀ r ∈ all, identity r ∈ kept.map identity) ∧
      Twin kept.length all.length sc.state sc'.state) ∨
    limited = true ∧ once.records.result (once.start limited) = .error .unwritable ∧
      always.records.result (always.start limited) = .error .unwritable := by
  intro once always
  rcases (together_records (.ofInfo info platform names tuning) limited).cases with
    ⟨kept, sc, all, sc', honce, halways, rfl, htwin⟩ | ⟨e, sc, sc', honce, halways⟩
  · refine .inl
      ⟨firsts all, all, sc, sc', honce, halways, rfl, nodup_identity_firsts all, ?_, htwin⟩
    intro r hr
    rw [mem_identity_firsts]
    exact List.mem_map_of_mem hr
  · obtain ⟨rfl, rfl⟩ := (once.sturdy_records hwalk (once.start limited) hcache).error honce
    exact .inr ⟨rfl, result_of_error honce, result_of_error halways⟩

/-- A program in which two units have the same structure, as from one header. -/
def sharedInfo : Info where
  units := [{ trees := [treeOf paddedRecord, treeOf numberType, treeOf Resolver.byteType] },
    { offset := 100, trees := [treeOf { paddedRecord with offset := 105 }] }]

/-- The structure is handed on once instead of twice. -/
theorem records_sharedInfo :
    ∃ kept all,
      (Survey.ofInfo sharedInfo {} [] {}).records.result
        (Survey.start (.ofInfo sharedInfo {} [] {}) true) = .ok kept ∧
      (Survey.ofInfo sharedInfo {} [] { deduplicate := false }).records.result
        (Survey.start (.ofInfo sharedInfo {} [] { deduplicate := false }) true) = .ok all ∧
      kept.length = 1 ∧ all.length = 2 ∧ kept = firsts all := by
  have hwalk : ∀ u ∈ sharedInfo.units, ∀ message, Visit.broken message ∉ u.visits := by
    simp only [sharedInfo, List.forall_mem_cons]
    exact ⟨not_broken_of_all (by decide +kernel), not_broken_of_all (by decide +kernel), by simp⟩
  have hall : ((Survey.ofInfo sharedInfo {} [] { deduplicate := false }).records.result
      (Survey.start (.ofInfo sharedInfo {} [] { deduplicate := false }) true)).map List.length =
      .ok 2 := by decide +kernel
  have hkept : ((Survey.ofInfo sharedInfo {} [] {}).records.result
      (Survey.start (.ofInfo sharedInfo {} [] {}) true)).map List.length = .ok 1 := by
    decide +kernel
  rcases records_deduplicate sharedInfo {} [] {} true hwalk (by decide) with
    ⟨kept, all, sc, sc', honce, halways, hfirsts, -⟩ | ⟨-, -, halways⟩
  · rw [result_of_ok honce] at hkept
    rw [result_of_ok halways] at hall
    exact ⟨kept, all, result_of_ok honce, result_of_ok halways, Except.ok.inj hkept,
      Except.ok.inj hall, hfirsts⟩
  · rw [halways] at hall
    cases hall

end PaddingAudit.Survey
