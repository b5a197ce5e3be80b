import PaddingAudit.Proofs.LimitedSurvey
import PaddingAudit.Proofs.Query

/-!
# The contract between survey and diagnosis

A diagnosis refuses records with negative sizes and records that are said to be smaller than they
can be. No record that a survey hands on is refused, whatever the debugging information is like, as
long as it states no negative sizes. So an analysis comes to its end, and each of its findings is
right about its record. All that can go wrong is the limit on decimal text.
-/

namespace PaddingAudit

open Debug PaddingAudit.Action

theorem roundUp_max_one (size alignment : Int) :
    roundUp size (max 1 alignment) = roundUp size alignment := by
  by_cases h : alignment ≤ 1
  · rw [roundUp_of_le_one size h, roundUp_of_le_one size (by omega)]
  · rw [show max 1 alignment = alignment by omega]

namespace Survey

variable {sv : Survey} {u : CompilationUnit} {s : Site} {unit : String} {r : Record}

namespace Admits

theorem effectiveAlignment_eq (h : sv.Admits s unit r) :
    r.effectiveAlignment sv.platform.maxAlign = max 1 r.alignment := by
  have hle := h.alignment_le
  unfold Record.effectiveAlignment PaddingAudit.effectiveAlignment
  omega

theorem total_nonneg (h : sv.Admits s unit r) : 0 ≤ total (r.fields.map Field.size) := by
  refine PaddingAudit.total_nonneg fun n hn => ?_
  obtain ⟨field, hf, rfl⟩ := List.mem_map.1 hn
  exact h.size_nonneg field hf

theorem dvd_actualSize (h : sv.Admits s unit r) : max 1 r.alignment ∣ r.actualSize := by
  rw [h.actualSize_eq, ← roundUp_max_one]
  exact dvd_roundUp _ (by omega)

theorem dvd_minimalSize (h : sv.Admits s unit r) :
    max 1 r.alignment ∣ r.minimalSize sv.platform.maxAlign := by
  rw [Record.minimalSize, h.effectiveAlignment_eq]
  exact dvd_roundUp _ (by omega)

theorem plainSize_le (h : sv.Admits s unit r) : plainSize s ≤ r.actualSize := by
  rw [h.actualSize_eq]
  exact le_roundUp _ _

/-- A record that is handed on is no smaller than it has to be. -/
theorem minimalSize_le (h : sv.Admits s unit r) :
    r.minimalSize sv.platform.maxAlign ≤ r.actualSize := by
  have htotal := h.total_le
  have hsize := h.plainSize_le
  rw [Record.minimalSize, h.effectiveAlignment_eq]
  exact roundUp_le (by omega) h.dvd_actualSize (by omega)

theorem negativeSize?_eq_none (h : sv.Admits s unit r) : r.negativeSize? = none := by
  have htotal := h.total_nonneg
  have hle := h.total_le
  have hsize := h.plainSize_le
  exact Record.negativeSize?_eq_none_iff.2 ⟨by omega, h.size_nonneg⟩

/-- A record that could be smaller is given a size above that of its members. -/
theorem total_lt (h : sv.Admits s unit r)
    (hlt : r.minimalSize sv.platform.maxAlign < r.actualSize) :
    ∃ n, s.int? .byteSize = some n ∧ total (r.fields.map Field.size) < n := by
  have hne : total (r.fields.map Field.size) ≠ plainSize s := by
    intro heq
    rw [Record.minimalSize, h.effectiveAlignment_eq, heq, roundUp_max_one, ← h.actualSize_eq] at hlt
    omega
  have hle := h.total_le
  have hpos := h.total_nonneg
  have hlt' : total (r.fields.map Field.size) < plainSize s := by omega
  unfold plainSize at hlt'
  cases hb : s.int? .byteSize with
  | none =>
    rw [hb, Option.getD_none] at hlt'
    omega
  | some n =>
    rw [hb, Option.getD_some] at hlt'
    exact ⟨n, rfl, hlt'⟩

end Admits

/-- A finding that is right about the record at a site of a unit. -/
structure Warrants (sv : Survey) (u : CompilationUnit) (s : Site) (r : Record) (f : Finding) :
    Prop where
  visited : Visit.site s ∈ u.visits
  isRecord : s.tagged Tag.isRecord
  admits : sv.Admits s u.displayName r
  finding_eq : f = r.finding sv.platform.maxAlign
  minimalSize_nonneg : 0 ≤ f.minimalSize
  minimalSize_lt : f.minimalSize < f.actualSize
  byteSize_gt : ∃ n, s.int? .byteSize = some n ∧ total (r.fields.map Field.size) < n
  dvd_minimalSize : max 1 r.alignment ∣ f.minimalSize
  dvd_actualSize : max 1 r.alignment ∣ f.actualSize
  dvd_savings : max 1 r.alignment ∣ f.savings

theorem Admits.warrants (h : sv.Admits s u.displayName r) (hs : Visit.site s ∈ u.visits)
    (ht : s.tagged Tag.isRecord) (hlt : r.minimalSize sv.platform.maxAlign < r.actualSize) :
    sv.Warrants u s r (r.finding sv.platform.maxAlign) where
  visited := hs
  isRecord := ht
  admits := h
  finding_eq := rfl
  minimalSize_nonneg := Int.le_trans h.total_nonneg (le_roundUp _ _)
  minimalSize_lt := hlt
  byteSize_gt := h.total_lt hlt
  dvd_minimalSize := h.dvd_minimalSize
  dvd_actualSize := h.dvd_actualSize
  dvd_savings := Int.dvd_sub h.dvd_actualSize h.dvd_minimalSize

/-- The findings of a tally are right about records of the units of a survey. -/
def Warranted (sv : Survey) (t : Tally) : Prop :=
  ∀ f ∈ t.findings, ∃ u ∈ sv.units, ∃ s r, sv.Warrants u s r f

/-- Without the limit the diagnosis of a record that is handed on is not interrupted. -/
theorem Admits.safe_diagnose {t : Tally} (h : sv.Admits s u.displayName r) (hu : u ∈ sv.units)
    (hs : Visit.site s ∈ u.visits) (hrecord : s.tagged Tag.isRecord) (ht : sv.Warranted t) :
    Safe (t.diagnose sv.platform.maxAlign r) fun result =>
      ∃ t', result = .ok t' ∧ sv.Warranted t' := by
  have hnone := h.negativeSize?_eq_none
  have hle := h.minimalSize_le
  by_cases heq : r.minimalSize sv.platform.maxAlign = r.actualSize
  · have hd : diagnose r sv.platform.maxAlign = .ok none := by
      simp [diagnose, hnone, heq]
    simp only [Tally.diagnose, hd]
    exact .pure ⟨_, rfl, by simpa [Warranted, Tally.add] using ht⟩
  · have hlt : r.minimalSize sv.platform.maxAlign < r.actualSize := by omega
    have hd := diagnose_eq_ok_some_iff.2 ⟨hnone, hlt, rfl⟩
    simp only [Tally.diagnose, hd]
    -- The finding is told, as there is no limit here.
    intro sc hsc
    have hlimited : sc.limited = false := hsc.limited_eq
    rw [ends_bind, ends_permits, if_pos (by simp [hlimited]), ends_bind, ends_log]
    refine ⟨hsc.note _, _, rfl, fun f hf => ?_⟩
    rcases List.mem_append.1 hf with hf | hf
    · exact ht f hf
    · obtain rfl := List.mem_singleton.1 hf
      exact ⟨u, hu, s, r, h.warrants hs hrecord hlt⟩

/-! ### Whole analyses -/

/-- What a walk finds at a visit that is not to a broken entry. -/
theorem safe_recordAt (hr : sv.resolver.Sane) {visit : Visit}
    (hsound : ∀ message, visit ≠ .broken message) :
    Safe (sv.recordAt u visit) fun r? => ∀ r, r? = some r →
      ∃ s, visit = .site s ∧ s.tagged Tag.isRecord ∧ sv.Admits s u.displayName r := by
  refine (Safe.spells u.spells_readName (P := (· = _)) rfl).bind ?_
  rintro _ rfl
  cases visit with
  | broken message => exact absurd rfl (hsound message)
  | gap => exact (safe_update _).bind fun _ _ => .pure (by simp)
  | site s =>
    refine (safe_update _).bind fun _ _ => ?_
    split
    · rename_i ht
      exact (sv.safe_recordOf hr u s _).imp fun r? h r hr => ⟨s, rfl, ht, h r hr⟩
    · exact .pure (by simp)

theorem safe_foldVisits (hr : sv.resolver.Sane) (hu : u ∈ sv.units) {visits : List Visit}
    (hsound : ∀ visit ∈ visits, visit ∈ u.visits ∧ ∀ message, visit ≠ .broken message)
    (seen : List Identity) {t : Tally} (ht : sv.Warranted t) :
    Safe (sv.foldVisits (Tally.diagnose sv.platform.maxAlign) u visits seen t) fun result =>
      ∃ seen' t', result = .ok (seen', t') ∧ sv.Warranted t' := by
  induction visits generalizing seen t with
  | nil => exact .pure ⟨seen, t, rfl, ht⟩
  | cons visit visits ih =>
    have hvisit := hsound visit (by simp)
    have hrest := fun v hv => hsound v (List.mem_cons_of_mem _ hv)
    refine (safe_recordAt hr hvisit.2).bind fun record? hrecord => ?_
    cases record? with
    | none => exact ih hrest seen ht
    | some r =>
      obtain ⟨s, rfl, htag, hadmits⟩ := hrecord r rfl
      dsimp only
      split
      · exact ih hrest seen ht
      · refine (safe_update _).bind fun _ _ => ?_
        refine (hadmits.safe_diagnose hu hvisit.1 htag ht).bind ?_
        rintro _ ⟨t', rfl, ht'⟩
        exact ih hrest _ ht'

theorem safe_foldUnits (hr : sv.resolver.Sane) {us : List CompilationUnit}
    (hus : ∀ u ∈ us, u ∈ sv.units)
    (hwalk : ∀ u ∈ sv.units, ∀ message, Visit.broken message ∉ u.visits) (seen : List Identity)
    {t : Tally} (ht : sv.Warranted t) :
    Safe (sv.foldUnits (Tally.diagnose sv.platform.maxAlign) us seen t) fun result =>
      ∃ seen' t', result = .ok (seen', t') ∧ sv.Warranted t' := by
  induction us generalizing seen t with
  | nil => exact .pure ⟨seen, t, rfl, ht⟩
  | cons u us ih =>
    have hu := hus u (by simp)
    have hvisits := safe_foldVisits hr hu
      (fun visit hv => ⟨hv, fun message he => hwalk u hu message (he ▸ hv)⟩) seen ht
    refine (hvisits.trackUnit u.offset).bind ?_
    rintro _ ⟨seen', t', rfl, ht'⟩
    exact ih (fun v hv => hus v (by simp [hv])) seen' ht'

/-- Without the limit a survey gives its findings, and each is right about its record. -/
theorem safe_findings (sv : Survey) (hr : sv.resolver.Sane)
    (hwalk : ∀ u ∈ sv.units, ∀ message, Visit.broken message ∉ u.visits) :
    Safe sv.findings fun fs => ∀ f ∈ fs, ∃ u ∈ sv.units, ∃ s r, sv.Warrants u s r f := by
  have hwork : Safe (sv.foldRecords (Tally.diagnose sv.platform.maxAlign) {} >>= Tally.close)
      fun fs => ∀ f ∈ fs, ∃ u ∈ sv.units, ∃ s r, sv.Warrants u s r f := by
    have hfold : Safe (sv.foldRecords (Tally.diagnose sv.platform.maxAlign) {}) fun result =>
        ∃ t, result = .ok t ∧ sv.Warranted t := by
      refine (safe_foldUnits hr (fun _ => id) hwalk [] (t := {}) (by simp [Warranted])).bind ?_
      rintro _ ⟨seen, t, rfl, ht⟩
      have hclose : Safe closeWalk fun _ => True :=
        Safe.bind (safe_current.bind fun _ _ => Safe.log _) fun _ _ =>
          Safe.state.bind fun _ _ => Safe.tell _
      exact hclose.bind fun _ _ => .pure ⟨t, rfl, ht⟩
    refine hfold.bind ?_
    rintro _ ⟨t, rfl, ht⟩
    exact (Safe.log _).bind fun _ _ => .pure ht
  refine (Safe.log _).bind fun _ _ => ?_
  refine Safe.bind (fun sc hsc => (ends_logFailure _).2 (hwork sc hsc)) fun fs hfs => ?_
  exact (Safe.log _).bind fun _ _ => .pure hfs

end Survey

open Survey

/-- The contract over a whole analysis. If the walk through the units comes upon no broken entry and
no size that is stated is negative, the analysis comes to its end once the limit on decimal text is
lifted, and every finding is right about its record: its sizes are multiples of the alignment of the
record, the minimal one is not negative and below the actual one, and the size that is stated is
above that of all members together. With the limit in force the analysis gives the same findings, or
fails for a number in an event or in another text that is too long to be written; if there is no
such number it gives them, and if an event has one it fails. -/
theorem findings_of_nonneg (info : Info) (platform : Platform) (names : List String)
    (tuning : Tuning) (hword : 0 ≤ platform.wordSize) (hcache : 0 ≤ tuning.cacheSize)
    (hwalk : ∀ u ∈ info.units, ∀ message, Visit.broken message ∉ u.visits)
    (hsize : ∀ s ∈ info.sites, ∀ n, s.int? .byteSize = some n → 0 ≤ n) :
    ∃ fs t,
      (Survey.ofInfo info platform names tuning).findings
          { state := .fresh tuning, limited := false } = .ok fs t ∧
      (∀ f ∈ fs, ∃ u ∈ info.units, ∃ s r,
        (Survey.ofInfo info platform names tuning).Warrants u s r f) ∧
      (((Survey.ofInfo info platform names tuning).findings.outcome (.fresh tuning)).1 = .ok fs ∧
          t.events.all Event.isWritable ∨
        ((Survey.ofInfo info platform names tuning).findings.outcome (.fresh tuning)).1 =
            .error .unwritable ∧
          ¬ ((Survey.ofInfo info platform names tuning).AllLegible ∧
            t.events.all Event.isWritable)) := by
  have hsound : Sound { state := .fresh tuning, limited := false } :=
    ⟨hcache, rfl, Cache.every_nil _ _ _⟩
  have hends := (Survey.ofInfo info platform names tuning).safe_findings ⟨hword, hsize⟩ hwalk _
    hsound
  cases hx : (Survey.ofInfo info platform names tuning).findings
      { state := .fresh tuning, limited := false } with
  | ok fs t => exact ⟨fs, t, rfl, (hends.ok hx).2, (tells_findings _).outcome_cases hx⟩
  | error e t => exact (hends.error hx).elim

theorem not_broken_of_all {visits : List Visit} (h : visits.all fun v => v.site?.isSome) :
    ∀ message, Visit.broken message ∉ visits := by
  intro message hmem
  have := List.all_eq_true.1 h _ hmem
  simp [Visit.site?] at this

theorem nonneg_of_all {sites : List Site} {key : Key}
    (h : sites.all fun s => (s.int? key).all fun n => decide (0 ≤ n)) :
    ∀ s ∈ sites, ∀ n, s.int? key = some n → 0 ≤ n := by
  intro s hs n hn
  have := List.all_eq_true.1 h s hs
  simpa [hn] using this

/-- The tree of an entry and the entries it directly contains. -/
def treeOf (s : Site) : Tree :=
  .node .sound s.toEntry (s.children.map fun e => .node .sound e [])

/-- A number between two bytes, in a structure of twelve bytes. -/
def paddedRecord : Site where
  tag := some .structureType
  offset := 1
  attributes := [(.name, { value := .text "S" }), (.byteSize, { value := .int 12 })]
  children := [Resolver.memberOf 3, Resolver.memberOf 2, Resolver.memberOf 3]

def numberType : Site where
  tag := some .baseType
  offset := 2
  attributes := [(.byteSize, { value := .int 4 })]

def paddedInfo : Info where
  units := [{ trees := [treeOf paddedRecord, treeOf numberType, treeOf Resolver.byteType] }]

/-- The one finding for the program saves four bytes. -/
theorem findings_paddedInfo :
    ∃ fs t,
      (Survey.ofInfo paddedInfo {} [] {}).findings { state := .fresh {}, limited := false } =
        .ok fs t ∧
      fs.map Finding.savings = [4] ∧
      ∀ f ∈ fs, ∃ u ∈ paddedInfo.units, ∃ s r,
        (Survey.ofInfo paddedInfo {} [] {}).Warrants u s r f := by
  obtain ⟨fs, t, hrun, hfs, hout⟩ := findings_of_nonneg paddedInfo {} [] {} (by decide) (by decide)
    (by simpa [paddedInfo] using not_broken_of_all (by decide +kernel))
    (nonneg_of_all (by decide +kernel))
  refine ⟨fs, t, hrun, ?_, hfs⟩
  have hsavings : ((Survey.ofInfo paddedInfo {} [] {}).findings.outcome (.fresh {})).1.map
      (List.map Finding.savings) = .ok [4] := by decide +kernel
  rcases hout with ⟨hok, -⟩ | ⟨herror, -⟩
  · rw [hok] at hsavings
    simpa [Except.map] using hsavings
  · rw [herror] at hsavings
    cases hsavings

def hugeInfo : Info where
  units := [{ trees := [treeOf Resolver.hugeRecord, treeOf Resolver.hugeArray,
    treeOf Resolver.byteType] }]

/-- The analysis of the program fails, although no entry is broken and no size is negative. Without
the limit there is nothing to find. -/
theorem findings_hugeInfo :
    (∀ u ∈ hugeInfo.units, ∀ message, Visit.broken message ∉ u.visits) ∧
      (∀ s ∈ hugeInfo.sites, ∀ n, s.int? .byteSize = some n → 0 ≤ n) ∧
      ((Survey.ofInfo hugeInfo {} [] {}).findings.outcome (.fresh {})).1 =
        .error .unwritable := by
  refine ⟨?_, nonneg_of_all (by decide +kernel), by decide +kernel⟩
  simpa [hugeInfo] using not_broken_of_all (by decide +kernel)

end PaddingAudit
