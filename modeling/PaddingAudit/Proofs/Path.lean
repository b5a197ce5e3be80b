import Mathlib.Data.List.Basic
import Mathlib.Tactic.Common
import PaddingAudit.Path

/-!
# What the text of a path stands for

A text is cut at its slashes, and what is empty or a dot between them says nothing. How many slashes
the text starts with says where the path starts. All this is put here as conditions on the text as a
whole, and `Path.ofString` and `Path.join` are what the conditions leave.
-/

namespace PaddingAudit

namespace Text

variable {α : Type} [BEq α] {sep : α} {xs part : List α}

theorem splitList_eq_splitOn (sep : α) (xs : List α) : splitList sep xs = xs.splitOn sep := by
  induction xs with
  | nil => rw [splitList, List.splitOn_nil]
  | cons x xs ih =>
    rw [splitList, List.splitOn_cons_eq_if_modifyHead, ih]
    split
    · rfl
    · cases hparts : xs.splitOn sep with
      | nil => exact absurd hparts (List.splitOn_ne_nil sep xs)
      | cons part parts => rfl

theorem not_mem_of_mem_splitList [LawfulBEq α] (h : part ∈ splitList sep xs) : sep ∉ part := by
  induction xs generalizing part with
  | nil =>
    obtain rfl : part = [] := by simpa [splitList] using h
    exact List.not_mem_nil
  | cons x xs ih =>
    unfold splitList at h
    split at h
    · rcases List.mem_cons.1 h with rfl | h
      · exact List.not_mem_nil
      · exact ih h
    · rename_i hx
      have hne : sep ≠ x := by
        rintro rfl
        exact hx BEq.rfl
      split at h
      · obtain rfl : part = [x] := by simpa using h
        simpa using hne
      · rename_i first parts hparts
        rcases List.mem_cons.1 h with rfl | h
        · rw [List.mem_cons, not_or]
          exact ⟨hne, ih (hparts ▸ List.mem_cons_self)⟩
        · exact ih (hparts ▸ List.mem_cons_of_mem first h)

end Text

namespace Path

variable {s directory name text root : String} {all parts : List String} {count : Nat}

/-- The stretches of a text between its slashes. -/
structure Stretches (s : String) (all : List String) : Prop where
  ne_nil : all ≠ []
  no_slash : ∀ part ∈ all, '/' ∉ part.toList
  together : "/".intercalate all = s

/-- The number of slashes at the start of a text. -/
def Leading (s : String) (count : Nat) : Prop :=
  ∃ rest, s.toList = List.replicate count '/' ++ rest ∧ rest.head? ≠ some '/'

/-- Where a path starts whose text starts with a number of slashes. Two of them are kept. -/
def rootText : Nat → String
  | 0 => ""
  | 2 => "//"
  | _ => "/"

/-- The start and the parts of the path that a text stands for. -/
def StandsFor (s root : String) (parts : List String) : Prop :=
  ∃ count all, Leading s count ∧ rootText count = root ∧ Stretches s all ∧
    all.filter (fun part => part ≠ "" ∧ part ≠ ".") = parts

/-- The text of the path with a start and parts. -/
def pathText (root : String) (parts : List String) : String :=
  if root = "" ∧ parts = [] then "." else root ++ "/".intercalate parts

/-- The text of the path of a name in a directory. A name that starts with a slash does without the
directory. -/
inductive Joined (directory name : String) : String → Prop
  | below {root : String} {parts more : List String} (hdirectory : StandsFor directory root parts)
      (hname : StandsFor name "" more) : Joined directory name (pathText root (parts ++ more))
  | alone {root : String} {parts : List String} (hname : StandsFor name root parts)
      (hroot : root ≠ "") : Joined directory name (pathText root parts)

theorem stretches_iff : Stretches s all ↔ Text.splitAt '/' s = all := by
  rw [Text.splitAt, Text.splitList_eq_splitOn]
  constructor
  · rintro ⟨hne, hslash, rfl⟩
    have hchars : ("/".intercalate all).toList = ['/'].intercalate (all.map String.toList) :=
      String.toList_intercalate
    rw [hchars, List.splitOn_intercalate _ (by simpa using hslash) (by simpa using hne)]
    simp
  · rintro rfl
    refine ⟨by simp, ?_, ?_⟩
    · intro part hpart
      obtain ⟨chars, hchars, rfl⟩ := List.mem_map.1 hpart
      rw [← Text.splitList_eq_splitOn] at hchars
      simpa using Text.not_mem_of_mem_splitList hchars
    · rw [← String.toList_inj, String.toList_intercalate, List.map_map]
      simp

theorem exists_leading (s : String) : ∃ count, Leading s count := by
  suffices h : ∀ cs : List Char,
      ∃ count rest, cs = List.replicate count '/' ++ rest ∧ rest.head? ≠ some '/' from h s.toList
  intro cs
  induction cs with
  | nil => exact ⟨0, [], rfl, by simp⟩
  | cons c cs ih =>
    by_cases hc : c = '/'
    · obtain ⟨count, rest, rfl, hrest⟩ := ih
      exact ⟨count + 1, rest, by rw [hc, List.replicate_succ, List.cons_append], hrest⟩
    · exact ⟨0, c :: cs, rfl, by simpa using hc⟩

theorem Leading.anchor_text (h : Leading s count) :
    (Anchor.ofChars s.toList).text = rootText count := by
  obtain ⟨rest, hs, hrest⟩ := h
  rw [hs]
  match count, rest with
  | 0, [] | 1, [] | 2, [] => rfl
  | 0, c :: rest | 1, c :: rest | 2, c :: rest =>
    have hc : c ≠ '/' := by simpa using hrest
    simp [Anchor.ofChars, Anchor.text, rootText, hc, List.replicate_succ]
  | count + 3, _ => rfl

theorem standsFor_iff :
    StandsFor s root parts ↔ (ofString s).anchor.text = root ∧ (ofString s).parts = parts := by
  have hparts : (ofString s).parts =
      (Text.splitAt '/' s).filter (fun part => part ≠ "" ∧ part ≠ ".") := by
    simp only [ofString]
    refine List.filter_congr fun part _ => ?_
    simp [beq_eq_decide]
  rw [hparts]
  constructor
  · rintro ⟨count, all, hcount, rfl, hall, rfl⟩
    exact ⟨hcount.anchor_text, by rw [stretches_iff.1 hall]⟩
  · rintro ⟨rfl, rfl⟩
    obtain ⟨count, hcount⟩ := exists_leading s
    exact ⟨count, _, hcount, hcount.anchor_text.symm, stretches_iff.2 rfl, rfl⟩

theorem text_eq_pathText (p : Path) : p.text = pathText p.anchor.text p.parts := by
  obtain ⟨anchor, parts⟩ := p
  cases anchor <;> cases parts <;> simp [Path.text, pathText, Anchor.text]

theorem Anchor.text_eq_empty_iff {anchor : Anchor} : anchor.text = "" ↔ anchor = .relative := by
  cases anchor <;> simp [Anchor.text]

theorem join_of_relative (p : Path) {q : Path} (h : q.anchor = .relative) :
    p.join q = { p with parts := p.parts ++ q.parts } := by
  simp only [join, h]

theorem join_of_ne_relative (p : Path) {q : Path} (h : q.anchor ≠ .relative) : p.join q = q := by
  unfold join
  split
  · contradiction
  · rfl

/-- The text of a name in a directory is that of the one path joined from the other. -/
theorem joined_iff :
    Joined directory name text ↔ ((ofString directory).join (ofString name)).text = text := by
  constructor
  · intro h
    cases h with
    | below hdirectory hname =>
      obtain ⟨rfl, rfl⟩ := standsFor_iff.1 hdirectory
      obtain ⟨hanchor, rfl⟩ := standsFor_iff.1 hname
      rw [join_of_relative _ (Anchor.text_eq_empty_iff.1 hanchor), text_eq_pathText]
    | alone hname hroot =>
      obtain ⟨rfl, rfl⟩ := standsFor_iff.1 hname
      rw [join_of_ne_relative _ (mt Anchor.text_eq_empty_iff.2 hroot), text_eq_pathText]
  · rintro rfl
    by_cases hname : (ofString name).anchor = .relative
    · rw [join_of_relative _ hname, text_eq_pathText]
      exact .below (standsFor_iff.2 ⟨rfl, rfl⟩)
        (standsFor_iff.2 ⟨Anchor.text_eq_empty_iff.2 hname, rfl⟩)
    · rw [join_of_ne_relative _ hname, text_eq_pathText]
      exact .alone (standsFor_iff.2 ⟨rfl, rfl⟩) (mt Anchor.text_eq_empty_iff.1 hname)

end Path

end PaddingAudit
