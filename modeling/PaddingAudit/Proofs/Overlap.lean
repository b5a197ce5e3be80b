import PaddingAudit.Proofs.Survey

/-!
# Members that share storage

A survey looks for members that overlap in a single pass over their extents, sorted by where they
start. The pass finds an overlap exactly if some byte is in two extents or some extent reaches below
the start of the record: neither the order in which the members are declared nor their number
matters.
-/

namespace PaddingAudit

open Debug PaddingAudit.Action

namespace Extent

variable {a b : Extent} {es fs : List Extent}

def Covers (e : Extent) (byte : Int) : Prop :=
  e.start ≤ byte ∧ byte < e.stop

def Meets (a b : Extent) : Prop :=
  ∃ byte, a.Covers byte ∧ b.Covers byte

theorem Meets.symm (h : a.Meets b) : b.Meets a := by
  obtain ⟨byte, ha, hb⟩ := h
  exact ⟨byte, hb, ha⟩

/-- An extent meets one with bytes that starts later, unless it ends before the other starts. -/
theorem meets_iff_of_start_le (hb : b.start < b.stop) (h : a.start ≤ b.start) :
    a.Meets b ↔ b.start < a.stop := by
  constructor
  · rintro ⟨byte, ⟨-, hlt⟩, hle, -⟩
    omega
  · intro hlt
    exact ⟨b.start, ⟨h, hlt⟩, Int.le_refl _, hb⟩

/-- A pass without a collision: no extent starts before the end of one in front of it. This needs no
sorting, as the pass remembers the largest end so far. -/
theorem collides_eq_false_iff {covered : Int} :
    collides covered es = false ↔
      (∀ e ∈ es, covered ≤ e.start) ∧ es.Pairwise fun a b => a.stop ≤ b.start := by
  induction es generalizing covered with
  | nil => simp [collides]
  | cons e es ih =>
    simp only [collides, Bool.or_eq_false_iff, decide_eq_false_iff_not, ih, List.forall_mem_cons,
      List.pairwise_cons, Int.not_lt, Int.max_le, forall_and]
    tauto

theorem start_le_of_precedes (h : a.precedes b) : a.start ≤ b.start := by
  simp only [precedes, Bool.or_eq_true, Bool.and_eq_true, decide_eq_true_eq, beq_iff_eq] at h
  omega

theorem pairwise_sorted (es : List Extent) :
    (es.mergeSort precedes).Pairwise fun a b => a.start ≤ b.start := by
  refine (List.pairwise_mergeSort ?_ ?_ es).imp start_le_of_precedes
  · intro a b c hab hbc
    simp only [precedes, Bool.or_eq_true, Bool.and_eq_true, decide_eq_true_eq, beq_iff_eq] at *
    omega
  · intro a b
    simp only [precedes, Bool.or_eq_true, Bool.and_eq_true, decide_eq_true_eq, beq_iff_eq]
    omega

/-- Sorted extents do not meet if and only if each ends before the next ones start. -/
theorem pairwise_stop_le_iff (hsorted : es.Pairwise fun a b => a.start ≤ b.start)
    (hpos : ∀ e ∈ es, e.start < e.stop) :
    (es.Pairwise fun a b => a.stop ≤ b.start) ↔ es.Pairwise fun a b => ¬ a.Meets b := by
  have hiff : es.Pairwise fun a b => a.stop ≤ b.start ↔ ¬ a.Meets b := by
    refine hsorted.imp_of_mem ?_
    intro a b _ hb hle
    rw [meets_iff_of_start_le (hpos b hb) hle, Int.not_lt]
  constructor
  · intro h
    exact h.imp₂ (fun _ _ hle hiff => hiff.1 hle) hiff
  · intro h
    exact h.imp₂ (fun _ _ hmeets hiff => hiff.2 hmeets) hiff

/-- Extents with bytes are found to overlap unless all of them are apart from each other and none
starts below zero. -/
theorem overlap_eq_false_iff (hpos : ∀ e ∈ es, e.start < e.stop) :
    overlap es = false ↔ (∀ e ∈ es, 0 ≤ e.start) ∧ es.Pairwise fun a b => ¬ a.Meets b := by
  have hperm := List.mergeSort_perm es precedes
  have hpos' : ∀ e ∈ es.mergeSort precedes, e.start < e.stop := by
    intro e he
    exact hpos e (hperm.mem_iff.1 he)
  rw [overlap, collides_eq_false_iff, pairwise_stop_le_iff (pairwise_sorted es) hpos',
    hperm.pairwise_iff fun h hmeets => h hmeets.symm]
  simp only [hperm.mem_iff]

end Extent

/-! ### Members -/

namespace Survey

variable {sv : Survey} {s : Site} {fields : List Field} {i : Nat} {e : Extent}

/-- The bytes of the member at a position. A member without size, or whose place is not known, has
none. -/
def Occupies (s : Site) (fields : List Field) (i : Nat) (e : Extent) : Prop :=
  ∃ member field, s.members[i]? = some member ∧ fields[i]? = some field ∧ 0 < field.size ∧
    member.int? .dataMemberLocation = some e.start ∧ e.stop = e.start + field.size

/-- Members that share storage. They need more bytes than the record is said to have, or one of them
is placed below its start, or two of them have a byte in common. -/
inductive Overlapping (s : Site) (fields : List Field) : Prop where
  | crowded (h : plainSize s < total (fields.map Field.size))
  | below {i : Nat} {e : Extent} (h : Occupies s fields i e) (hneg : e.start < 0)
  | shared {i j : Nat} {a b : Extent} (hij : i ≠ j) (ha : Occupies s fields i a)
      (hb : Occupies s fields j b) (h : a.Meets b)

theorem plainExtent?_eq_some_iff {member : Entry} {field : Field} :
    plainExtent? member field = some e ↔
      0 < field.size ∧ member.int? .dataMemberLocation = some e.start ∧
        e.stop = e.start + field.size := by
  unfold plainExtent?
  cases member.int? .dataMemberLocation with
  | none => simp
  | some n =>
    by_cases hpos : 0 < field.size
    · simp only [Option.bind_some, if_pos hpos, Option.some.injEq]
      constructor
      · rintro rfl
        exact ⟨hpos, rfl, rfl⟩
      · rintro ⟨-, rfl, hstop⟩
        rw [← hstop]
    · simp [hpos]

theorem occupies_iff :
    Occupies s fields i e ↔
      ∃ p, (s.members.zip fields)[i]? = some p ∧ plainExtent? p.1 p.2 = some e := by
  constructor
  · rintro ⟨member, field, hmember, hfield, hextent⟩
    exact ⟨(member, field), List.getElem?_zip_eq_some.2 ⟨hmember, hfield⟩,
      plainExtent?_eq_some_iff.2 hextent⟩
  · rintro ⟨⟨member, field⟩, hp, hextent⟩
    obtain ⟨hmember, hfield⟩ := List.getElem?_zip_eq_some.1 hp
    exact ⟨member, field, hmember, hfield, plainExtent?_eq_some_iff.1 hextent⟩

theorem Occupies.start_lt_stop (h : Occupies s fields i e) : e.start < e.stop := by
  obtain ⟨member, field, -, -, hpos, -, hstop⟩ := h
  omega

theorem mem_plainExtents : e ∈ plainExtents s fields ↔ ∃ i, Occupies s fields i e := by
  rw [plainExtents, List.mem_filterMap]
  simp only [List.mem_iff_getElem?, occupies_iff]
  constructor
  · rintro ⟨p, ⟨i, hi⟩, hp⟩
    exact ⟨i, p, hi, hp⟩
  · rintro ⟨i, p, hi, hp⟩
    exact ⟨p, ⟨i, hi⟩, hp⟩

/-- A relation between all extents is one between all members that have some. -/
theorem pairwise_plainExtents {R : Extent → Extent → Prop} :
    (plainExtents s fields).Pairwise R ↔
      ∀ i j a b, i < j → Occupies s fields i a → Occupies s fields j b → R a b := by
  rw [plainExtents, List.pairwise_filterMap, List.pairwise_iff_getElem]
  constructor
  · intro h i j a b hij ha hb
    obtain ⟨p, hp, hpa⟩ := occupies_iff.1 ha
    obtain ⟨q, hq, hqb⟩ := occupies_iff.1 hb
    obtain ⟨hi, rfl⟩ := List.getElem?_eq_some_iff.1 hp
    obtain ⟨hj, rfl⟩ := List.getElem?_eq_some_iff.1 hq
    exact h i j hi hj hij a hpa b hqb
  · intro h i j hi hj hij a ha b hb
    exact h i j a b hij (occupies_iff.2 ⟨_, List.getElem?_eq_getElem hi, ha⟩)
      (occupies_iff.2 ⟨_, List.getElem?_eq_getElem hj, hb⟩)

/-- The pass over the sorted extents finds out whether members share storage. -/
theorem plainOverlap_eq_false_iff : plainOverlap s fields = false ↔ ¬ Overlapping s fields := by
  have hpos : ∀ e ∈ plainExtents s fields, e.start < e.stop := by
    intro e he
    obtain ⟨i, hi⟩ := mem_plainExtents.1 he
    exact hi.start_lt_stop
  rw [plainOverlap, Bool.or_eq_false_iff, decide_eq_false_iff_not, Extent.overlap_eq_false_iff hpos,
    pairwise_plainExtents]
  constructor
  · rintro ⟨hfits, habove, hapart⟩ hover
    cases hover with
    | crowded h => exact hfits h
    | below h hneg =>
      have hle := habove _ (mem_plainExtents.2 ⟨_, h⟩)
      omega
    | @shared i j a b hij ha hb h =>
      rcases Nat.lt_or_gt_of_ne hij with hlt | hgt
      · exact hapart i j a b hlt ha hb h
      · exact hapart j i b a hgt hb ha h.symm
  · intro h
    refine ⟨fun hlt => h (.crowded hlt), fun e he => ?_, fun i j a b hij ha hb hmeets => ?_⟩
    · obtain ⟨i, hi⟩ := mem_plainExtents.1 he
      by_contra hneg
      exact h (.below hi (by omega))
    · exact h (.shared (by omega) ha hb hmeets)

theorem plainOverlap_iff : plainOverlap s fields = true ↔ Overlapping s fields := by
  rw [← not_iff_not, Bool.not_eq_true, plainOverlap_eq_false_iff]

/-! ### Rejection -/

variable {u : CompilationUnit} {unit : String} {sc : Scene State}

/-- Nothing is reported of a definition, and the last thing that the journal says is why. -/
def Rejects (sv : Survey) (u : CompilationUnit) (s : Site) (unit : String) (sc : Scene State)
    (reason : Skip) : Prop :=
  ∃ sc', sv.recordOf u s unit sc = .ok none sc' ∧
    sc'.events.getLast? = some (.recordSkipped (strictLabel s) s.offset reason)

/-- A definition that passes at first sight: its name can be read, it is asked for, and no reason is
seen to pass over it. -/
structure Passes (sv : Survey) (s : Site) (limited : Bool) : Prop where
  named : s.qualifiedNameIsWritable || !limited
  selected : sv.selects s
  unskipped : sv.definitionSkip? s = none

/-- The number of the source file of an entry is too long to be written. -/
def HasVastFile (e : Entry) : Prop :=
  ∃ number, e.int? .declFile = some number ∧ Text.isWritable number = false

theorem hasVastFile_of_locationIsWritable {table : FileTable} {e : Entry}
    (h : locationIsWritable table e = false) : HasVastFile e := by
  unfold locationIsWritable at h
  cases hnumber : e.int? .declFile with
  | none => simp [hnumber] at h
  | some number =>
    rw [hnumber, Option.all_some, fileNameIsWritable, Bool.or_eq_false_iff] at h
    exact ⟨number, hnumber, h.2⟩

/-- What becomes of a definition whose fields are known and that is not over-aligned. Only the place
of a record can be too long to be told. -/
theorem ends_recordOf_of_fields (u : CompilationUnit) (unit : String)
    (hpasses : sv.Passes s sc.limited) (hfields : (sv.fieldsOf s).result sc = .ok fields)
    (hne : fields ≠ []) (halignment : plainAlignment s fields ≤ sv.platform.maxAlign) :
    Ends (sv.recordOf u s unit) sc
      (fun r? sc' => if plainOverlap s fields then
          r? = none ∧
            sc'.events.getLast? = some (.recordSkipped (strictLabel s) s.offset .overlapping)
        else ∃ r, r? = some r ∧ r.fields = fields)
      (fun e sc' => e = .unwritable ∧ sc'.limited = true ∧ plainOverlap s fields = false ∧
        HasVastFile s.toEntry) := by
  obtain ⟨sc₁, hok⟩ := ok_of_result hfields
  have hany : IgnoresAsides fun _ : Scene State => True := fun _ _ _ => id
  have hempty : fields.isEmpty = false := by simpa using hne
  unfold recordOf
  rw [ends_bind]
  apply Ends.of_ok (write_of_permitted hpasses.named _)
  simp only [hpasses.selected, hpasses.unskipped, Bool.not_true, Bool.false_eq_true, if_false]
  rw [ends_bind]
  apply Ends.of_ok hok
  simp only [hempty, Bool.false_eq_true, if_false]
  refine (quiet_alignmentFor s fields).ends_bind hany trivial fun sc₂ _ => ?_
  refine (sv.quiet_layoutSkip s fields _).ends_bind hany trivial fun sc₃ _ => ?_
  rw [plainSkip?, if_neg (by omega)]
  cases plainOverlap s fields with
  | true =>
    simp only [if_true]
    unfold skip
    rw [ends_bind, ends_tell, if_pos (by simp [Event.isWritable, Skip.isWritable])]
    exact ⟨rfl, by simp [Scene.events, Scene.note]⟩
  | false =>
    simp only [Bool.false_eq_true, if_false]
    refine (quiet_sizeFor s _).ends_bind hany trivial fun sc₄ _ => ?_
    rw [ends_bind]
    refine (ends_locationOf u s.toEntry sc₄).imp (fun location? sc₅ _ => ⟨_, rfl, rfl⟩) ?_
    rintro e sc₅ ⟨rfl, hlimited, hlong⟩
    rw [Bool.or_eq_false_iff, Bool.not_eq_false'] at hlong
    exact ⟨rfl, hlimited.trans hlong.2, trivial, hasVastFile_of_locationIsWritable hlong.1⟩

/-- The test for overlaps is sound and complete. Take a definition that passes at first sight, has
fields and is not aligned beyond the platform. It is rejected for overlapping members exactly if
members share storage, and is reported with its fields if none do, unless its file goes by a number
that cannot be written. -/
theorem rejects_overlapping_iff (u : CompilationUnit) (unit : String) (sc : Scene State)
    (hpasses : sv.Passes s sc.limited) (hfields : (sv.fieldsOf s).result sc = .ok fields)
    (hne : fields ≠ []) (halignment : plainAlignment s fields ≤ sv.platform.maxAlign) :
    (sv.Rejects u s unit sc .overlapping ↔ Overlapping s fields) ∧
      (¬ Overlapping s fields →
        (∃ r sc', sv.recordOf u s unit sc = .ok (some r) sc' ∧ r.fields = fields) ∨
        ∃ sc', sv.recordOf u s unit sc = .error .unwritable sc' ∧ sc'.limited = true ∧
          HasVastFile s.toEntry) := by
  have hends := ends_recordOf_of_fields u unit hpasses hfields hne halignment
  by_cases hover : Overlapping s fields
  · refine ⟨iff_of_true ?_ hover, fun hnot => (hnot hover).elim⟩
    rw [← plainOverlap_iff] at hover
    cases hx : sv.recordOf u s unit sc with
    | error e sc' => simpa [hover] using hends.error hx
    | ok r? sc' =>
      have hout := hends.ok hx
      rw [if_pos hover] at hout
      obtain ⟨rfl, hlast⟩ := hout
      exact ⟨sc', hx, hlast⟩
  · have happart := plainOverlap_eq_false_iff.2 hover
    cases hx : sv.recordOf u s unit sc with
    | error e sc' =>
      obtain ⟨rfl, hlimited, -, hvast⟩ := hends.error hx
      refine ⟨iff_of_false ?_ hover, fun _ => .inr ⟨sc', rfl, hlimited, hvast⟩⟩
      rintro ⟨sc'', hnone, -⟩
      rw [hx] at hnone
      cases hnone
    | ok r? sc' =>
      have hout := hends.ok hx
      simp only [happart, Bool.false_eq_true, if_false] at hout
      obtain ⟨r, rfl, hr⟩ := hout
      refine ⟨iff_of_false ?_ hover, fun _ => .inl ⟨r, sc', rfl, hr⟩⟩
      rintro ⟨sc'', hnone, -⟩
      rw [hx] at hnone
      cases hnone

def memberAt (name : String) (place type : Int) : Entry where
  tag := some .member
  offset := 0
  attributes := [(.name, { value := .text name }),
    (.type, { value := .int type, form := some "DW_FORM_ref4" }),
    (.dataMemberLocation, { value := .int place })]

def scalarAt (offset size : Int) : Site where
  tag := some .baseType
  offset := offset
  attributes := [(.byteSize, { value := .int size })]

/-- A structure of sixteen bytes. It declares a number at the place given, in front of a word at its
start and an empty member in the middle of the word. -/
def stack (place : Int) : Site where
  tag := some .structureType
  offset := 1
  attributes := [(.name, { value := .text "S" }), (.byteSize, { value := .int 16 })]
  children := [memberAt "a" place 2, memberAt "b" 0 3, memberAt "c" 5 4]

def stackSurvey (place : Int) : Survey where
  resolver := { platform := {}, sites := [stack place, scalarAt 2 4, scalarAt 3 8, scalarAt 4 0] }
  units := []

def stackFields : List Field :=
  [{ name := "a", size := 4, alignment := 4 }, { name := "b", size := 8, alignment := 8 },
   { name := "c", size := 0, alignment := 1 }]

/-- A number in the last bytes of the word is found, although all members together would have room
and the word is declared later. Right behind the word it is in order. -/
theorem rejects_overlapping_stack :
    Overlapping (stack 4) stackFields ∧
      (stackSurvey 4).Rejects {} (stack 4) "" ((stackSurvey 4).start true) .overlapping ∧
      ∃ r sc', (stackSurvey 8).recordOf {} (stack 8) "" ((stackSurvey 8).start true) =
        .ok (some r) sc' ∧ r.fields = stackFields := by
  have hne : stackFields ≠ [] := by decide
  have hinner : Overlapping (stack 4) stackFields := by
    refine .shared (i := 0) (j := 1) (a := { start := 4, stop := 8 })
      (b := { start := 0, stop := 8 }) (by decide) ?_ ?_ ?_
    · exact ⟨_, _, rfl, rfl, by decide, rfl, rfl⟩
    · exact ⟨_, _, rfl, rfl, by decide, rfl, rfl⟩
    · exact ⟨4, ⟨by decide, by decide⟩, by decide, by decide⟩
  have hextents : plainExtents (stack 8) stackFields =
      [{ start := 8, stop := 12 }, { start := 0, stop := 8 }] := by decide +kernel
  have hapart : ¬ Overlapping (stack 8) stackFields := by
    rw [← plainOverlap_eq_false_iff, plainOverlap, hextents, Bool.or_eq_false_iff]
    refine ⟨by decide +kernel, ?_⟩
    rw [Extent.overlap_eq_false_iff (by decide), List.pairwise_pair]
    refine ⟨by decide, ?_⟩
    rintro ⟨byte, ⟨hle, -⟩, -, hlt⟩
    simp only at hle hlt
    omega
  have hfile : ¬ HasVastFile (stack 8).toEntry := by
    rintro ⟨number, ⟨⟩, -⟩
  have hpasses : ∀ place, (stackSurvey place).Passes (stack place) true := fun place =>
    ⟨rfl, rfl, rfl⟩
  refine ⟨hinner, ?_, ?_⟩
  · exact (rejects_overlapping_iff {} "" _ (hpasses 4) (by decide +kernel) hne
      (by decide +kernel)).1.2 hinner
  · refine ((rejects_overlapping_iff {} "" _ (hpasses 8) (by decide +kernel) hne
      (by decide +kernel)).2 hapart).resolve_right ?_
    rintro ⟨sc', -, -, hvast⟩
    exact hfile hvast

end Survey

end PaddingAudit
