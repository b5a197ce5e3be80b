import Mathlib.Data.List.ReduceOption
import PaddingAudit.Analysis
import PaddingAudit.Proofs.Diagnosis
import PaddingAudit.Proofs.Query

/-!
# Analyses

An analysis takes the verdicts on its records one after the other, and the first one that is a
failure is its own. Whether a record breaks the contract is a matter of its sizes. If none does, the
findings are about the records that are larger than they have to be, in order, and save all that
could be saved. What is to be said about a record may be too long to be told: then this is the
verdict on it, be it good or bad otherwise.
-/

namespace PaddingAudit

open PaddingAudit.Action

variable {ε σ : Type}

namespace Record

variable {r : Record} {cap : Int}

/-- A record with sizes that no layout can have. -/
def Breaks (r : Record) (cap : Int) : Prop :=
  r.actualSize < 0 ∨ (∃ field ∈ r.fields, field.size < 0) ∨ r.actualSize < r.minimalSize cap

instance (r : Record) (cap : Int) : Decidable (r.Breaks cap) :=
  inferInstanceAs (Decidable (_ ∨ _ ∨ _))

theorem not_breaks_iff :
    ¬ r.Breaks cap ↔ r.negativeSize? = none ∧ r.minimalSize cap ≤ r.actualSize := by
  rw [negativeSize?_eq_none_iff]
  simp [Breaks, and_assoc]

/-- A record is refused exactly if it breaks the contract. -/
theorem exists_diagnose_eq_error_iff : (∃ e, diagnose r cap = .error e) ↔ r.Breaks cap := by
  constructor
  · rintro ⟨e, he⟩
    by_contra hb
    obtain ⟨hn, hle⟩ := not_breaks_iff.1 hb
    rcases Int.lt_or_eq_of_le hle with hlt | heq
    · rw [diagnose_eq_ok_some_iff.2 ⟨hn, hlt, rfl⟩] at he
      cases he
    · rw [diagnose_eq_ok_none_iff.2 ⟨hn, heq⟩] at he
      cases he
  · intro hb
    cases hd : diagnose r cap with
    | error e => exact ⟨e, rfl⟩
    | ok finding =>
      refine absurd hb (not_breaks_iff.2 ?_)
      cases finding with
      | none =>
        obtain ⟨hn, heq⟩ := diagnose_eq_ok_none_iff.1 hd
        exact ⟨hn, Int.le_of_eq heq⟩
      | some f =>
        obtain ⟨hn, hlt, -⟩ := diagnose_eq_ok_some_iff.1 hd
        exact ⟨hn, Int.le_of_lt hlt⟩

/-- A record that keeps the contract gets a finding if it is larger than it has to be, and none
otherwise. -/
theorem diagnose_of_not_breaks (h : ¬ r.Breaks cap) :
    diagnose r cap =
      .ok (if r.minimalSize cap < r.actualSize then some (r.finding cap) else none) := by
  obtain ⟨hn, hle⟩ := not_breaks_iff.1 h
  by_cases hlt : r.minimalSize cap < r.actualSize
  · rw [if_pos hlt, diagnose_eq_ok_some_iff]
    exact ⟨hn, hlt, rfl⟩
  · rw [if_neg hlt, diagnose_eq_ok_none_iff]
    exact ⟨hn, by omega⟩

end Record

/-- Whether the numbers that are told about a record are short enough to be written. Nothing is told
about one that is as small as it can be. -/
def Record.isTellable (r : Record) (cap : Int) : Bool :=
  match diagnose r cap with
  | .error e => e.isWritable
  | .ok none => true
  | .ok (some f) =>
    (Event.shrinkable r.name f.minimalSize r.actualSize (r.effectiveAlignment cap)).isWritable

/-- What the diagnosis of a record comes to. `limited` says whether the limit on decimal text is in
force. -/
def verdict (limited : Bool) (cap : Int) (r : Record) : Except Failure (Option Finding) :=
  if r.isTellable cap || !limited then (diagnose r cap).mapError .contract
  else .error .unwritable

theorem Tally.diagnose_apply (cap : Int) (t : Tally) (r : Record) (sc : Scene σ) :
    ∃ es, (t.diagnose cap r : Action ε σ (Except Failure Tally)) sc =
      .ok ((verdict sc.limited cap r).map t.add) (sc.note es) := by
  unfold Tally.diagnose verdict Record.isTellable
  cases PaddingAudit.diagnose r cap with
  | error e =>
    refine ⟨[], ?_⟩
    dsimp only
    rw [bind_ok (show permits e.isWritable sc = .ok _ sc from rfl), Scene.note_nil]
    cases e.isWritable || !sc.limited <;> rfl
  | ok finding =>
    cases finding with
    | none => exact ⟨[], by rw [Scene.note_nil]; rfl⟩
    | some f =>
      let event : Event :=
        .shrinkable r.name f.minimalSize r.actualSize (r.effectiveAlignment cap)
      dsimp only
      rw [bind_ok (show permits event.isWritable sc = .ok _ sc from rfl)]
      cases event.isWritable || !sc.limited with
      | true => exact ⟨[event], by rw [if_pos rfl, bind_ok (log_apply event sc)]; rfl⟩
      | false => exact ⟨[], by rw [Scene.note_nil]; rfl⟩

theorem Tally.result_diagnose (cap : Int) (t : Tally) (r : Record) (sc : Scene σ) :
    (t.diagnose cap r : Action ε σ (Except Failure Tally)).result sc =
      .ok ((verdict sc.limited cap r).map t.add) := by
  obtain ⟨es, hes⟩ := diagnose_apply (ε := ε) cap t r sc
  exact result_of_ok hes

/-- A tally with more records, the findings on which are given in order. -/
def Tally.addAll (t : Tally) (findings : List (Option Finding)) : Tally where
  checked := t.checked + findings.length
  findings := t.findings ++ findings.reduceOption

theorem Tally.addAll_nil (t : Tally) : t.addAll [] = t := by
  simp [addAll]

theorem Tally.addAll_cons (t : Tally) (finding : Option Finding)
    (findings : List (Option Finding)) :
    t.addAll (finding :: findings) = (t.add finding).addAll findings := by
  cases finding <;> simp [addAll, add] <;> omega

theorem Tally.diagnoseAll_apply (cap : Int) (t : Tally) (records : List Record) (sc : Scene σ) :
    ∃ es, (t.diagnoseAll cap records : Action ε σ (Except Failure Tally)) sc =
      .ok ((records.mapM (verdict sc.limited cap)).map t.addAll) (sc.note es) := by
  induction records generalizing t sc with
  | nil =>
    refine ⟨[], ?_⟩
    rw [Scene.note_nil, List.mapM_nil]
    show EStateM.Result.ok (Except.ok t) sc = .ok (.ok (t.addAll [])) sc
    rw [addAll_nil]
  | cons r records ih =>
    obtain ⟨es, hes⟩ := diagnose_apply (ε := ε) cap t r sc
    rw [diagnoseAll, bind_ok hes, List.mapM_cons]
    cases verdict sc.limited cap r with
    | error e => exact ⟨es, rfl⟩
    | ok finding =>
      obtain ⟨fs, hfs⟩ := ih (t.add finding) (sc.note es)
      refine ⟨es ++ fs, ?_⟩
      rw [Scene.limited_note, Scene.note_note] at hfs
      refine hfs.trans ?_
      cases records.mapM (verdict sc.limited cap) with
      | error e => rfl
      | ok findings =>
        show EStateM.Result.ok (Except.ok ((t.add finding).addAll findings)) _ =
          .ok (.ok (t.addAll (finding :: findings))) _
        rw [addAll_cons]

/-- An analysis takes the verdicts on its records in order. -/
theorem result_analyse (platform : Platform) (records : List Record) (sc : Scene σ) :
    (analyse platform records).result sc =
      (records.mapM (verdict sc.limited platform.maxAlign)).map List.reduceOption := by
  obtain ⟨es, hes⟩ :=
    Tally.diagnoseAll_apply (ε := Failure) platform.maxAlign {} records sc
  apply Ends.result_eq
  rw [analyse, ends_bind]
  apply Ends.of_ok hes
  cases records.mapM (verdict sc.limited platform.maxAlign) with
  | error e => rfl
  | ok findings =>
    show Ends (Tally.close (.ok (Tally.addAll {} findings))) _ _ _
    rw [Tally.close, ends_bind, ends_log]
    rfl

/-! ### First failures -/

section Traversal

variable {α β : Type} {f : α → Except ε β}

theorem mapM_of_forall_ok {g : α → β} {l : List α} (h : ∀ a ∈ l, f a = .ok (g a)) :
    l.mapM f = .ok (l.map g) := by
  induction l with
  | nil => rfl
  | cons a l ih =>
    rw [List.mapM_cons, h a (by simp), ih fun b hb => h b (by simp [hb])]
    rfl

theorem mapM_of_error {before after : List α} {a : α} {e : ε}
    (hbefore : ∀ b ∈ before, ∃ c, f b = .ok c) (ha : f a = .error e) :
    (before ++ a :: after).mapM f = .error e := by
  induction before with
  | nil =>
    rw [List.nil_append, List.mapM_cons, ha]
    rfl
  | cons b before ih =>
    obtain ⟨c, hc⟩ := hbefore b (by simp)
    rw [List.cons_append, List.mapM_cons, hc, ih fun d hd => hbefore d (by simp [hd])]
    rfl

/-- If something holds of one of several items, there is a first one of which it does. -/
theorem exists_first {p : α → Prop} {l : List α} (h : ∃ a ∈ l, p a) :
    ∃ before a after, l = before ++ a :: after ∧ (∀ b ∈ before, ¬ p b) ∧ p a := by
  classical
  obtain ⟨a, ha⟩ : ∃ a, l.find? (fun a => decide (p a)) = some a := by
    rw [← Option.isSome_iff_exists, List.find?_isSome]
    simpa using h
  obtain ⟨hp, before, after, rfl, hbefore⟩ := List.find?_eq_some_iff_append.1 ha
  exact ⟨before, a, after, rfl, by simpa using hbefore, by simpa using hp⟩

end Traversal

section Verdict

variable {limited : Bool} {cap : Int} {r : Record} {records : List Record}

theorem verdict_of_not_breaks (hb : ¬ r.Breaks cap) (ht : r.isTellable cap || !limited) :
    verdict limited cap r =
      .ok (if r.minimalSize cap < r.actualSize then some (r.finding cap) else none) := by
  rw [verdict, if_pos ht, Record.diagnose_of_not_breaks hb]
  rfl

theorem verdict_of_breaks (hb : r.Breaks cap) (ht : r.isTellable cap || !limited) :
    ∃ e, diagnose r cap = .error e ∧ verdict limited cap r = .error (.contract e) := by
  obtain ⟨e, he⟩ := Record.exists_diagnose_eq_error_iff.2 hb
  refine ⟨e, he, ?_⟩
  rw [verdict, if_pos ht, he]
  rfl

theorem verdict_of_untold (ht : ¬ (r.isTellable cap || !limited)) :
    verdict limited cap r = .error .unwritable := by
  rw [verdict, if_neg ht]

/-- A verdict is good if the record keeps the contract and can be told about. -/
theorem verdict_eq_ok_iff {finding : Option Finding} :
    verdict limited cap r = .ok finding ↔
      ¬ r.Breaks cap ∧ (r.isTellable cap || !limited) ∧
        finding = if r.minimalSize cap < r.actualSize then some (r.finding cap) else none := by
  by_cases ht : r.isTellable cap || !limited
  · by_cases hb : r.Breaks cap
    · obtain ⟨e, -, hv⟩ := verdict_of_breaks hb ht
      simp [hv, hb]
    · rw [verdict_of_not_breaks hb ht, Except.ok.injEq]
      constructor
      · intro h
        exact ⟨hb, ht, h.symm⟩
      · intro h
        exact h.2.2.symm
  · rw [verdict_of_untold ht]
    simp [ht]

theorem verdict_eq_ok_none_iff :
    verdict limited cap r = .ok none ↔
      ¬ r.Breaks cap ∧ (r.isTellable cap || !limited) ∧ ¬ r.minimalSize cap < r.actualSize := by
  rw [verdict_eq_ok_iff]
  split <;> simp_all

theorem finding_of_verdict {f : Finding} (h : verdict limited cap r = .ok (some f)) :
    f = r.finding cap := by
  obtain ⟨-, -, hf⟩ := verdict_eq_ok_iff.1 h
  split at hf <;> simp_all

theorem exists_verdict_eq_error_iff :
    (∃ e, verdict limited cap r = .error e) ↔
      r.Breaks cap ∨ ¬ (r.isTellable cap || !limited) := by
  cases hv : verdict limited cap r with
  | ok finding =>
    obtain ⟨hb, ht, -⟩ := verdict_eq_ok_iff.1 hv
    simp [hb, ht]
  | error e =>
    refine ⟨fun _ => ?_, fun _ => ⟨e, rfl⟩⟩
    by_contra hgood
    push Not at hgood
    rw [verdict_of_not_breaks hgood.1 hgood.2] at hv
    cases hv

/-- The records that have to be looked at: those up to the first that breaks the contract. -/
def examined (cap : Int) : List Record → List Record
  | [] => []
  | r :: records => if r.Breaks cap then [r] else r :: examined cap records

theorem examined_of_breaks {before after : List Record} (hbefore : ∀ q ∈ before, ¬ q.Breaks cap)
    (hr : r.Breaks cap) : examined cap (before ++ r :: after) = before ++ [r] := by
  induction before with
  | nil => simp [examined, hr]
  | cons q before ih =>
    have hq := hbefore q (by simp)
    simp [examined, hq, ih fun p hp => hbefore p (by simp [hp])]

theorem examined_of_forall (h : ∀ r ∈ records, ¬ r.Breaks cap) :
    examined cap records = records := by
  induction records with
  | nil => rfl
  | cons r records ih =>
    have hr := h r (by simp)
    simp [examined, hr, ih fun q hq => h q (by simp [hq])]

theorem exists_first_untold {told : Record → Prop} (h : ¬ ∀ r ∈ examined cap records, told r) :
    ∃ before r after, records = before ++ r :: after ∧
      (∀ q ∈ before, ¬ q.Breaks cap ∧ told q) ∧ ¬ told r := by
  have hsome : ∃ r ∈ records, r.Breaks cap ∨ ¬ told r := by
    by_contra hnone
    push Not at hnone
    rw [examined_of_forall fun r hr => (hnone r hr).1] at h
    exact h fun r hr => (hnone r hr).2
  obtain ⟨before, r, after, rfl, hbefore, hr⟩ := exists_first hsome
  push Not at hbefore
  refine ⟨before, r, after, rfl, hbefore, fun ht => h ?_⟩
  -- If the first record of this kind could be told, all that are looked at could.
  rw [examined_of_breaks (fun q hq => (hbefore q hq).1) (hr.resolve_right (not_not.2 ht))]
  intro q hq
  rcases List.mem_append.1 hq with hq | hq
  · exact (hbefore q hq).2
  · exact List.mem_singleton.1 hq ▸ ht

/-- The findings about records that are larger than they have to be, in order. -/
theorem reduceOption_map_finding (cap : Int) (records : List Record) :
    (records.map fun r =>
      if r.minimalSize cap < r.actualSize then some (r.finding cap) else none).reduceOption =
      (records.filter fun r => r.minimalSize cap < r.actualSize).map fun r => r.finding cap := by
  induction records with
  | nil => rfl
  | cons r records ih =>
    by_cases hlt : r.minimalSize cap < r.actualSize
    · simp [hlt, ih]
    · simp [hlt, ih]

/-- Records that get no finding have nothing to save. -/
theorem totalSavings_filter (h : ∀ r ∈ records, r.minimalSize cap ≤ r.actualSize) :
    totalSavings ((records.filter fun r => r.minimalSize cap < r.actualSize).map
        fun r => r.finding cap) =
      total (records.map fun r => r.actualSize - r.minimalSize cap) := by
  induction records with
  | nil => rfl
  | cons r records ih =>
    have hle := h r (by simp)
    have hrest := ih fun q hq => h q (by simp [hq])
    by_cases hlt : r.minimalSize cap < r.actualSize
    · rw [List.filter_cons_of_pos (by simpa using hlt), List.map_cons, List.map_cons, total_cons,
        ← hrest]
      rfl
    · have hzero : r.actualSize - r.minimalSize cap = 0 := by omega
      rw [List.filter_cons_of_neg (by simpa using hlt), List.map_cons, total_cons, hzero, hrest,
        Int.zero_add]

end Verdict

/-! ### Whole analyses -/

section Whole

variable {platform : Platform} {sc : Scene σ} {r : Record} {records before after : List Record}

theorem result_analyse_of_breaks (hbefore : ∀ q ∈ before, ¬ q.Breaks platform.maxAlign)
    (hr : r.Breaks platform.maxAlign)
    (htold : ∀ q ∈ examined platform.maxAlign (before ++ r :: after),
      q.isTellable platform.maxAlign || !sc.limited) :
    ∃ e, diagnose r platform.maxAlign = .error e ∧
      (analyse platform (before ++ r :: after)).result sc = .error (.contract e) := by
  rw [examined_of_breaks hbefore hr] at htold
  obtain ⟨e, he, hv⟩ := verdict_of_breaks hr (htold r (by simp))
  refine ⟨e, he, ?_⟩
  rw [result_analyse, mapM_of_error _ hv]
  · rfl
  · intro q hq
    exact ⟨_, verdict_of_not_breaks (hbefore q hq) (htold q (by simp [hq]))⟩

theorem result_analyse_of_forall (hall : ∀ r ∈ records, ¬ r.Breaks platform.maxAlign)
    (htold : ∀ r ∈ examined platform.maxAlign records,
      r.isTellable platform.maxAlign || !sc.limited) :
    (analyse platform records).result sc =
      .ok ((records.filter fun r => r.minimalSize platform.maxAlign < r.actualSize).map
        fun r => r.finding platform.maxAlign) := by
  rw [examined_of_forall hall] at htold
  rw [result_analyse, ← reduceOption_map_finding,
    mapM_of_forall_ok fun r hr => verdict_of_not_breaks (hall r hr) (htold r hr)]
  rfl

theorem result_analyse_of_untold
    (h : ¬ ∀ r ∈ examined platform.maxAlign records,
      r.isTellable platform.maxAlign || !sc.limited) :
    (analyse platform records).result sc = .error .unwritable := by
  obtain ⟨before, r, after, rfl, hbefore, hr⟩ := exists_first_untold h
  rw [result_analyse, mapM_of_error _ (verdict_of_untold hr)]
  · rfl
  · intro q hq
    exact ⟨_, verdict_of_not_breaks (hbefore q hq).1 (hbefore q hq).2⟩

end Whole

/-- An analysis is all or nothing, and its savings add up. If all that has to be told about the
records can be written, it fails exactly if some record breaks the contract, for the cause that the
diagnosis of the first such record gives. Otherwise its findings are about the records that are
larger than they have to be, in order, each of them saves something, and together they save what all
records together could. If something that has to be told cannot be written, the analysis fails for
this reason. -/
theorem analyse_all_or_nothing (platform : Platform) (records : List Record) (sc : Scene σ) :
    let cap := platform.maxAlign
    let result := (analyse platform records).result sc
    ((∀ r ∈ examined cap records, r.isTellable cap || !sc.limited) →
      ((∃ e, result = .error e) ↔ ∃ r ∈ records, r.Breaks cap) ∧
      (∀ before r after, records = before ++ r :: after → (∀ q ∈ before, ¬ q.Breaks cap) →
        r.Breaks cap → ∃ e, diagnose r cap = .error e ∧ result = .error (.contract e)) ∧
      ((∀ r ∈ records, ¬ r.Breaks cap) → ∃ fs, result = .ok fs ∧
        fs = ((records.filter fun r => r.minimalSize cap < r.actualSize).map
          fun r => r.finding cap) ∧
        (∀ f ∈ fs, 0 < f.savings) ∧
        totalSavings fs = total (records.map fun r => r.actualSize - r.minimalSize cap))) ∧
    ((¬ ∀ r ∈ examined cap records, r.isTellable cap || !sc.limited) →
      result = .error .unwritable) := by
  intro cap result
  refine ⟨fun htold => ⟨⟨?_, ?_⟩, ?_, ?_⟩, result_analyse_of_untold⟩
  · rintro ⟨e, he⟩
    by_contra hnone
    push Not at hnone
    have hok : result = .ok _ := result_analyse_of_forall hnone htold
    rw [hok] at he
    cases he
  · intro hsome
    obtain ⟨before, r, after, rfl, hbefore, hr⟩ := exists_first hsome
    obtain ⟨e, -, he⟩ := result_analyse_of_breaks hbefore hr htold
    exact ⟨_, he⟩
  · rintro before r after rfl hbefore hr
    exact result_analyse_of_breaks hbefore hr htold
  · intro hall
    refine ⟨_, result_analyse_of_forall hall htold, rfl, ?_, ?_⟩
    · intro f hf
      obtain ⟨r, hr, rfl⟩ := List.mem_map.1 hf
      have hlt : r.minimalSize cap < r.actualSize := by simpa using (List.mem_filter.1 hr).2
      exact Int.sub_pos_of_lt hlt
    · apply totalSavings_filter
      intro r hr
      exact (Record.not_breaks_iff.1 (hall r hr)).2

/-- A record of two numbers with a byte between them that takes a whole word. -/
def gappy : Record where
  name := "G"
  fields := [{ name := "a", size := 8 }, { name := "b", size := 1 }, { name := "c", size := 4 }]
  actualSize := 24
  alignment := 8

def snug : Record where
  name := "T"
  fields := [{ name := "p", size := 8 }]
  actualSize := 8
  alignment := 8

/-- Of two good records one gets a finding, and all that can be saved is saved there. -/
theorem analyse_gappy :
    (∀ r ∈ [gappy, snug], ¬ r.Breaks 8) ∧
      ∃ fs, (analyse {} [gappy, snug]).result ({ state := () } : Scene Unit) = .ok fs ∧
        fs = [gappy.finding 8] ∧ totalSavings fs = 8 := by
  have hgood : ∀ r ∈ [gappy, snug], ¬ r.Breaks 8 := by decide +kernel
  have htold : ∀ r ∈ examined 8 [gappy, snug], r.isTellable 8 || !true := by decide +kernel
  have hall := (analyse_all_or_nothing {} [gappy, snug] ({ state := () } : Scene Unit)).1 htold
  obtain ⟨fs, hfs, heq, -, htotal⟩ := hall.2.2 hgood
  refine ⟨hgood, fs, hfs, heq, htotal.trans ?_⟩
  decide +kernel

/-- A record that is said to be small, and has two members of sizes just below a bound. -/
def heavy (bound : Nat) : Record where
  name := "R"
  fields := [{ name := "a", size := bound - 1 }, { name := "b", size := bound - 1 }]
  actualSize := 5
  alignment := 8

theorem le_minimalSize_heavy {bound : Nat} (h : 2 ≤ bound) :
    (bound : Int) ≤ (heavy bound).minimalSize 8 := by
  have hsum : (bound : Int) ≤ total ((heavy bound).fields.map Field.size) := by
    simp [heavy]
    omega
  exact Int.le_trans hsum (le_roundUp _ _)

theorem diagnose_heavy {bound : Nat} (h : 6 ≤ bound) :
    diagnose (heavy bound) 8 = .error (.belowMinimal "R" 5 ((heavy bound).minimalSize 8) 8) := by
  have hmin : (bound : Int) ≤ (heavy bound).minimalSize 8 := le_minimalSize_heavy (by omega)
  have hactual : (heavy bound).actualSize = 5 := rfl
  have hnone : (heavy bound).negativeSize? = none := by
    rw [Record.negativeSize?_eq_none_iff]
    simp [heavy]
    omega
  rw [diagnose, hnone]
  dsimp only
  rw [if_neg (by omega), if_pos (by omega)]
  rfl

/-- A record breaks the contract, and the analysis fails without saying so: the least size that the
record could have is too long to be written. -/
theorem analyse_heavy :
    let r := heavy (10 ^ Text.maxDigits)
    r.Breaks 8 ∧ (∀ field ∈ r.fields, field.size.natAbs < 10 ^ Text.maxDigits) ∧
      diagnose r 8 = .error (.belowMinimal "R" 5 (r.minimalSize 8) 8) ∧
      (analyse {} [r]).result ({ state := () } : Scene Unit) = .error .unwritable := by
  have hbound : 6 ≤ 10 ^ Text.maxDigits := (show 6 ≤ 10 ^ 1 by decide).trans
    (Nat.pow_le_pow_right (by decide) (by decide))
  generalize hb : 10 ^ Text.maxDigits = bound at hbound
  intro r
  have hdiagnose := diagnose_heavy hbound
  have huntold : ¬ (r.isTellable 8 || !true) := by
    have hlong : ¬ Text.isWritable (r.minimalSize 8) := by
      rw [Text.isWritable, Text.fitsDigits_iff, hb]
      have hmin : (bound : Int) ≤ r.minimalSize 8 := le_minimalSize_heavy (by omega)
      omega
    rw [Record.isTellable, hdiagnose]
    simp [ContractError.isWritable, r, hlong]
  refine ⟨Record.exists_diagnose_eq_error_iff.1 ⟨_, hdiagnose⟩, ?_, hdiagnose, ?_⟩
  · simp [r, heavy]
    omega
  · have hfirst : [r].mapM (verdict true 8) = .error .unwritable := by
      rw [List.mapM_cons, verdict_of_untold huntold]
      rfl
    rw [result_analyse]
    exact congrArg (Except.map List.reduceOption) hfirst

end PaddingAudit
