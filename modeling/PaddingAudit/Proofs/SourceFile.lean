import PaddingAudit.Proofs.Invariant
import PaddingAudit.Proofs.Path
import PaddingAudit.Proofs.Utf8

/-!
# Source files

Where an entry is declared is said by a number, which stands for an entry in the table of source
files of its unit. What a table says is written here as rules that count from the first number of
the table, without a position that could be negative. A survey works out a table once and then
remembers it: it never takes the table of one unit for that of another.
-/

namespace PaddingAudit

open Debug PaddingAudit.Action

/-! ### Tables -/

namespace Debug

variable {α : Type} {version number : Int} {directories : List RawText}
  {files : List (RawText × Int)} {raw : RawText} {lineProgram : LineProgram} {text : String}

/-- The number of the first file in a table, and of the first directory. -/
def firstNumber (version : Int) : Int :=
  if version < 5 then 1 else 0

/-- What a name of a table reads as. A text stands for itself, and bytes are decoded. -/
inductive Reads : RawText → String → Prop
  | text (s : String) : Reads (.text s) s
  | bytes {bs : List UInt8} {s : String} (h : Text.Utf8.Decodes bs s.toList) : Reads (.bytes bs) s

/-- The name of a file in a table with some directories. It is joined to the directory that it has
the number of, and stands for itself if no directory has this number. -/
inductive NameText (version : Int) (directories : List RawText) : RawText × Int → String → Prop
  | joined {i : Nat} {raw rawDirectory : RawText} {name directory text : String}
      (h : directories[i]? = some rawDirectory) (hdirectory : Reads rawDirectory directory)
      (hname : Reads raw name) (htext : Path.Joined directory name text) :
      NameText version directories (raw, firstNumber version + i) text
  | bare {raw : RawText} {number : Int} {name : String}
      (h : ∀ i : Nat, i < directories.length → number ≠ firstNumber version + i)
      (hname : Reads raw name) : NameText version directories (raw, number) name

/-- A number that a table has a file for. -/
inductive Listed : LineProgram → Int → Prop
  | intro {version : Int} {directories : List RawText} {files : List (RawText × Int)} {i : Nat}
      (h : i < files.length) : Listed (.present version directories files) (firstNumber version + i)

/-- The file that a number stands for in a unit. -/
inductive FileText : LineProgram → Int → String → Prop
  | listed {version : Int} {directories : List RawText} {files : List (RawText × Int)} {i : Nat}
      {file : RawText × Int} {text : String} (h : files[i]? = some file)
      (htext : NameText version directories file text) :
      FileText (.present version directories files) (firstNumber version + i) text
  | unlisted {lineProgram : LineProgram} {number : Int} (h : ¬ Listed lineProgram number) :
      FileText lineProgram number ("<file " ++ Text.decimal number ++ ">")

theorem reads_iff : Reads raw text ↔ raw.decode = text := by
  constructor
  · intro h
    cases h with
    | text => rfl
    | bytes h =>
      rw [RawText.decode, Text.Utf8.decode, Text.Utf8.decodes_iff.1 h, String.ofList_toList]
  · rintro rfl
    cases raw with
    | text s => exact .text s
    | bytes bs => exact .bytes (Text.Utf8.decodes_iff.2 String.toList_ofList.symm)

namespace FileTable

theorem item?_sub_eq_some_iff {items : List α} {first : Int} {a : α} :
    item? items (number - first) = some a ↔ ∃ i : Nat, number = first + i ∧ items[i]? = some a := by
  unfold item?
  constructor
  · intro h
    split at h
    · cases h
    · exact ⟨(number - first).toNat, by omega, h⟩
  · rintro ⟨i, rfl, hi⟩
    have hposition : (first + i - first).toNat = i := by omega
    rw [if_neg (by omega), hposition, hi]

theorem item?_sub_eq_none_iff {items : List α} {first : Int} :
    item? items (number - first) = none ↔
      ∀ i : Nat, i < items.length → number ≠ first + i := by
  rw [Option.eq_none_iff_forall_ne_some]
  constructor
  · intro h i hi heq
    exact h items[i] (item?_sub_eq_some_iff.2 ⟨i, heq, List.getElem?_eq_getElem hi⟩)
  · intro h a ha
    obtain ⟨i, heq, hi⟩ := item?_sub_eq_some_iff.1 ha
    exact h i (List.getElem?_eq_some_iff.1 hi).1 heq

theorem directoryPosition_eq (version number : Int) :
    (if 5 ≤ version then number else number - 1) = number - firstNumber version := by
  unfold firstNumber
  split <;> split <;> omega

theorem nameText_iff {file : RawText × Int} :
    NameText version directories file text ↔ fileName version directories file = text := by
  obtain ⟨raw, number⟩ := file
  simp only [fileName, directoryPosition_eq]
  constructor
  · intro h
    cases h with
    | joined h hdirectory hname htext =>
      rw [item?_sub_eq_some_iff.2 ⟨_, rfl, h⟩]
      dsimp only
      rw [reads_iff.1 hdirectory, reads_iff.1 hname, Path.joined_iff.1 htext]
    | bare h hname =>
      rw [item?_sub_eq_none_iff.2 h]
      exact reads_iff.1 hname
  · rintro rfl
    cases hitem : item? directories (number - firstNumber version) with
    | none => exact .bare (item?_sub_eq_none_iff.1 hitem) (reads_iff.2 rfl)
    | some directory =>
      obtain ⟨i, rfl, hi⟩ := item?_sub_eq_some_iff.1 hitem
      exact .joined hi (reads_iff.2 rfl) (reads_iff.2 rfl) (Path.joined_iff.2 rfl)

theorem base_eq (version : Int) : (if 5 ≤ version then 0 else 1) = firstNumber version := by
  unfold firstNumber
  split <;> split <;> omega

theorem file?_present :
    (ofLineProgram (.present version directories files)).file? number =
      (item? files (number - firstNumber version)).map (fileName version directories) := by
  simp only [ofLineProgram, file?, base_eq, item?]
  split
  · rfl
  · rw [List.getElem?_map]

/-- A table has a file for the numbers that count from its first one. -/
theorem isSome_file?_iff :
    ((ofLineProgram lineProgram).file? number).isSome = true ↔ Listed lineProgram number := by
  have hempty : (file? {} number).isSome = false := by simp [file?, item?]
  cases lineProgram with
  | absent => exact ⟨fun h => absurd h (by simp [ofLineProgram, hempty]), nofun⟩
  | broken message => exact ⟨fun h => absurd h (by simp [ofLineProgram, hempty]), nofun⟩
  | present version directories files =>
    rw [file?_present, Option.isSome_map, Option.isSome_iff_exists]
    constructor
    · rintro ⟨file, hfile⟩
      obtain ⟨i, rfl, hi⟩ := item?_sub_eq_some_iff.1 hfile
      exact .intro (List.getElem?_eq_some_iff.1 hi).1
    · rintro ⟨hi⟩
      exact ⟨_, item?_sub_eq_some_iff.2 ⟨_, rfl, List.getElem?_eq_getElem hi⟩⟩

/-- The rules say of each number in each unit one file, and this is the one that is looked up. -/
theorem fileText_iff :
    FileText lineProgram number text ↔
      ((ofLineProgram lineProgram).file? number).getD (placeholder number) = text := by
  constructor
  · intro h
    cases h with
    | listed h htext =>
      rw [file?_present, item?_sub_eq_some_iff.2 ⟨_, rfl, h⟩]
      exact nameText_iff.1 htext
    | unlisted h =>
      rw [← isSome_file?_iff, Option.not_isSome_iff_eq_none] at h
      rw [h, Option.getD_none, placeholder]
  · rintro rfl
    cases hfile : (ofLineProgram lineProgram).file? number with
    | none =>
      refine .unlisted fun h => ?_
      rw [← isSome_file?_iff, hfile] at h
      cases h
    | some text =>
      cases lineProgram with
      | absent => simp [ofLineProgram, file?, item?] at hfile
      | broken message => simp [ofLineProgram, file?, item?] at hfile
      | present version directories files =>
        rw [file?_present, Option.map_eq_some_iff] at hfile
        obtain ⟨file, hitem, hname⟩ := hfile
        obtain ⟨i, rfl, hi⟩ := item?_sub_eq_some_iff.1 hitem
        exact .listed hi (nameText_iff.2 hname)

end FileTable

end Debug

/-! ### Histories -/

namespace Survey

variable {α : Type} {sv : Survey} {limited : Bool} {sc : Scene State}

/-- What can be done with a survey: places and records are asked for, and types are resolved, in any
order. While a walk goes on, all this can be done with each record that it hands on. -/
inductive Asks (sv : Survey) : {α : Type} → Action Failure State α → Prop
  | pure {α : Type} (a : α) : Asks sv (pure a)
  | fail {α : Type} (e : Failure) : Asks sv (fail e : Action Failure State α)
  | bind {α β : Type} {x : Action Failure State α} {f : α → Action Failure State β}
      (hx : Asks sv x) (hf : ∀ a, Asks sv (f a)) : Asks sv (x >>= f)
  | location {u : CompilationUnit} (hu : u ∈ sv.units) (e : Entry) : Asks sv (locationOf u e)
  | record {u : CompilationUnit} (hu : u ∈ sv.units) (s : Site) (unit : String) :
      Asks sv (sv.recordOf u s unit)
  | resolve {s : Site} (hs : sv.resolver.Holds s) :
      Asks sv (resolving (sv.resolver.resolve (some s)))
  | walk {ι β : Type} {step : β → Record → Action Failure State (Except ι β)}
      (hstep : ∀ b r, Asks sv (step b r)) (b : β) : Asks sv (sv.foldRecords step b)

/-- All records are asked for in a walk. -/
theorem Asks.records : sv.Asks sv.records := by
  refine .bind (.walk (fun _ _ => .pure _) []) ?_
  rintro (impossible | rs)
  · exact impossible.elim
  · exact .pure rs

theorem Asks.keeps {I : Scene State → Prop} {x : Action Failure State α}
    (hx : sv.Asks x) (h : sv.Invariant (· ∈ sv.units) I) : Keeps I x := by
  induction hx with
  | pure a => exact h.quiet (.pure a)
  | fail e => exact fun _ hsc => hsc
  | bind _ _ ihx ihf => exact h.regular.andThen ihx ihf
  | location hu e => exact h.regular.locationOf hu e
  | record hu s unit => exact h.regular.recordOf hu s unit
  | resolve hs => exact h.resolve _ hs
  | walk _ b ih => exact h.foldRecords (fun _ => id) ih b

/-- A scene that a survey can be in. Where something that was asked for failed, the next is asked
for in the scene that was left behind. -/
inductive Reached (sv : Survey) (limited : Bool) : Scene State → Prop
  | start : Reached sv limited (sv.start limited)
  | after {α : Type} {x : Action Failure State α} {sc : Scene State}
      (h : Reached sv limited sc) (hx : sv.Asks x) : Reached sv limited (x.after sc)

theorem Reached.of_invariant {I : Scene State → Prop} (h : sv.Reached limited sc)
    (hI : sv.Invariant (· ∈ sv.units) I) (hstart : I (sv.start limited)) : I sc := by
  induction h with
  | start => exact hstart
  | after _ hx ih => exact (hx.keeps hI _ ih).after

/-! ### Places -/

/-- The layouts that are resolved on the way are not looked at: here they may be any. -/
theorem invariant_ownFiles (hunits : (sv.units.map fun u => u.offset).Nodup) :
    sv.Invariant (· ∈ sv.units) sv.OwnFiles where
  note _ _ _ h := h
  counted _ _ h := h
  remember _ hu _ h := h.remembering hunits hu
  resolve s _ sc h := by
    rw [resolving, ends_onPart]
    cases hx : sv.resolver.resolve (some s) { sc with state := sc.state.cache } with
    | ok l t => exact Ends.of_ok hx h
    | error e t => exact Ends.of_error hx h

theorem Reached.ownFiles (h : sv.Reached limited sc)
    (hunits : (sv.units.map fun u => u.offset).Nodup) : sv.OwnFiles sc := by
  refine h.of_invariant (invariant_ownFiles hunits) fun u _ table ht => ?_
  cases ht

/-- The place of an entry that says the number of a file is the file that this number stands for in
the table of the unit, together with the line and the column that the entry says, or zero. This is
so whatever was asked before, for every version of a table, and also where there is none. Only a
number that is not listed and too long to be written has no place. All that is needed is that the
units of the program have offsets of their own. -/
theorem locationOf_of_reached (info : Info) (platform : Platform) (names : List String)
    (tuning : Tuning) (limited : Bool) (hunits : (info.units.map fun u => u.offset).Nodup)
    (sc : Scene State) (hsc : (Survey.ofInfo info platform names tuning).Reached limited sc)
    (u : CompilationUnit) (hu : u ∈ info.units) (e : Entry) (number : Int)
    (hnumber : e.int? .declFile = some number) :
    ∃ file, (∀ text, FileText u.lineProgram number text ↔ text = file) ∧
      ((Listed u.lineProgram number ∨ Text.isWritable number = true ∨ sc.limited = false) →
        (locationOf u e).result sc = .ok (some
          { file := file
            line := (e.int? .declLine).getD 0
            column := (e.int? .declColumn).getD 0 })) ∧
      (¬ Listed u.lineProgram number ∧ Text.isWritable number = false ∧ sc.limited = true →
        (locationOf u e).result sc = .error .unwritable) := by
  have hfiles : knownFiles sc u = .ofLineProgram u.lineProgram :=
    (hsc.ownFiles hunits).knownFiles_eq hu
  have hplain : plainLocation? (knownFiles sc u) e = some
      { file := plainFileName (.ofLineProgram u.lineProgram) number
        line := (e.int? .declLine).getD 0
        column := (e.int? .declColumn).getD 0 } := by
    rw [plainLocation?, hnumber, hfiles]
    rfl
  have hwritable : (locationIsWritable (knownFiles sc u) e || !sc.limited) = true ↔
      Listed u.lineProgram number ∨ Text.isWritable number = true ∨ sc.limited = false := by
    rw [locationIsWritable, hnumber, hfiles, Option.all_some, fileNameIsWritable, Bool.or_assoc,
      Bool.or_eq_true, FileTable.isSome_file?_iff, Bool.or_eq_true, Bool.not_eq_true']
  refine ⟨plainFileName (.ofLineProgram u.lineProgram) number, fun text => ?_, fun hok => ?_,
    fun hlong => ?_⟩
  · rw [FileTable.fileText_iff, eq_comm, plainFileName]
  · refine ((ends_locationOf u e sc).imp (fun _ _ h => ?_) fun _ _ h => ?_).result_eq
    · rw [h.1, hplain]
    · rw [hwritable.2 hok] at h
      cases h.2.2
  · obtain ⟨hunlisted, hvast, hlimited⟩ := hlong
    refine ((ends_locationOf u e sc).imp (fun _ _ h => ?_) fun _ _ h => ?_).result_eq
    · have hnone := hwritable.1 h.2
      simp [hunlisted, hvast, hlimited] at hnone
    · rw [h.1]

/-- A structure that is declared in the file with the number one. -/
def headerEntry : Entry where
  tag := some .structureType
  offset := 90
  attributes := [(.declFile, { value := .int 1 }), (.declLine, { value := .int 3 })]

/-- A unit with an old table, in which the first number is one. -/
def oldUnit : CompilationUnit where
  lineProgram := .present 4 [.text "/usr/include"] [(.text "a.h", 1), (.text "b.h", 0)]

/-- A unit with a new table, in which the first number is zero. -/
def newUnit : CompilationUnit where
  offset := 64
  lineProgram := .present 5 [.text "/src", .text "inc"] [(.text "main.c", 0), (.text "x.h", 1)]

def mixedSurvey : Survey :=
  .ofInfo { units := [oldUnit, newUnit] } {} [] {}

/-- The number is looked up in the new table after it was looked up in the old one. -/
theorem locationOf_newUnit :
    (locationOf newUnit headerEntry).result
        (mixedSurvey.records.after ((locationOf oldUnit headerEntry).after
          (mixedSurvey.start true))) =
      .ok (some { file := "inc/x.h", line := 3, column := 0 }) := by
  have hlocation : mixedSurvey.Asks (locationOf oldUnit headerEntry) :=
    .location List.mem_cons_self _
  have hreached : mixedSurvey.Reached true (mixedSurvey.records.after _) :=
    .after (.after .start hlocation) .records
  obtain ⟨file, hfile, hresult, -⟩ := locationOf_of_reached _ _ _ _ true (by decide) _ hreached
    newUnit (by simp [newUnit, oldUnit]) headerEntry 1 rfl
  have htext : FileText newUnit.lineProgram 1 "inc/x.h" :=
    FileTable.fileText_iff.2 (by decide +kernel)
  rw [(hfile _).1 htext]
  exact hresult (.inl (.intro (i := 1) (by decide)))

/-- An entry that says a number of 4301 digits for its file. -/
def vastEntry : Entry where
  tag := some .structureType
  offset := 80
  attributes := [(.declFile, { value := .int (10 ^ 4300 : Nat) })]

/-- No elements of a huge array of bytes. -/
def emptyArray : Site where
  tag := some .arrayType
  offset := 5
  attributes := [(.type, { value := .int 2, form := some "DW_FORM_ref4" })]
  children := [{
    tag := some .subrangeType
    offset := 6
    attributes := [(.count, { value := .int 0 })] }]

/-- A structure that has the empty array as a member. -/
def emptyMemberRecord : Site where
  tag := some .structureType
  offset := 1
  attributes := [(.name, { value := .text "S" }), (.byteSize, { value := .int 8 }),
    (.declFile, { value := .int 1 }), (.declLine, { value := .int 3 })]
  children := [Resolver.memberOf 5]

def emptyMemberUnit : CompilationUnit where
  trees := [treeOf emptyMemberRecord, treeOf emptyArray, treeOf Resolver.hugeArray,
    treeOf Resolver.byteType]
  lineProgram := .present 4 [] [(.text "s.h", 0)]

/-- A number that is too long to be written is nowhere in place of a file. Nor is a file that is
listed said of a structure, if the walk fails at the layout of an array below. -/
theorem locationOf_vastEntry :
    (vastEntry.int? .declFile = some (10 ^ 4300 : Nat) ∧
      (locationOf oldUnit vastEntry).result (mixedSurvey.start true) = .error .unwritable) ∧
    (FileText emptyMemberUnit.lineProgram 1 "s.h" ∧
      (Survey.ofInfo { units := [emptyMemberUnit] } {} [] {}).records.result
        ((Survey.ofInfo { units := [emptyMemberUnit] } {} [] {}).start true) =
          .error .unwritable) := by
  refine ⟨⟨?_, ?_⟩, FileTable.fileText_iff.2 ?_, ?_⟩ <;> decide +kernel

end Survey

end PaddingAudit
