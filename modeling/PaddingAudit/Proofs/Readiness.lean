import Mathlib.Data.List.Basic
import PaddingAudit.Logging

/-!
# Readiness of logging

To set logging up is to make the directories of the log, then to open the log file, and only then to
attach the sinks. Each of the first two can fail. Logging stays as it is then, but for one thing: it
knows the path of its log file once the directories are there, even if the log file cannot be opened
after that. So the sinks are attached exactly while logging is ready, whatever was asked before, but
a path may be known without a log file.
-/

namespace PaddingAudit.Logging

def atMoment (l : Logging) (m : Moment) : Logging :=
  { l with moment := m }

def withPath (l : Logging) (path : Path) : Logging :=
  { l with logPath := some path }

/-- A set-up, with the moment at which it is asked for, the files that it finds and what was written
so far. -/
structure SetUp where
  directory : Path
  debug : Bool
  moment : Moment
  out : Output

inductive Request where
  | setUp (s : SetUp)
  | takeDown

/-- What a set-up comes to. -/
def SetUp.run (s : SetUp) (l : Logging) : Except StorageError Unit × Logging × Output :=
  (l.atMoment s.moment).setUp s.directory s.debug s.out

/-- Logging after a request. -/
def Request.serve (l : Logging) : Request → Logging
  | .setUp s => (s.run l).2.1
  | .takeDown => l.takeDown

/-- Logging after some requests, the last one first. What is written between two of them, and what
becomes of the files there, is left open. -/
def after (m : Moment) : List Request → Logging
  | [] => { moment := m }
  | q :: past => q.serve (after m past)

/-- The set-ups since logging was last taken down, the last one first. -/
def setUps : List Request → List SetUp
  | .setUp s :: past => s :: setUps past
  | _ => []

namespace SetUp

variable {s : SetUp} {l : Logging} {place : Place}

/-- The log file that a set-up is to open. -/
def logFile (s : SetUp) : Path :=
  Logging.logFile s.moment s.directory

/-- Whether the directories of the log are there or can be made. -/
def hasDirectories (s : SetUp) : Bool :=
  (s.out.files.ensureDirectories s.directory).1.isOk

/-- The log file can be opened, at some place. -/
def Opens (s : SetUp) (place : Place) : Prop :=
  ∃ files opened, s.out.files.ensureDirectories s.directory = (.ok (), files) ∧
    files.openForAppending s.logFile = .ok (opened, place)

/-- Logging to the console and to the log file. -/
def attached (s : SetUp) (place : Place) : Logging where
  moment := s.moment
  threshold := .debug
  sinks := [.console (if s.debug then .debug else .info), .file place]
  logPath := some s.logFile
  ready := true

theorem Opens.hasDirectories (h : s.Opens place) : s.hasDirectories = true := by
  obtain ⟨files, opened, hmade, -⟩ := h
  rw [SetUp.hasDirectories, hmade]
  rfl

/-- What a set-up can come to: logging was ready before, a directory cannot be made, the log file
cannot be opened, or both sinks are attached. -/
theorem run_cases (s : SetUp) (l : Logging) :
    (l.ready = true ∧ s.run l = (.ok (), l.atMoment s.moment, s.out)) ∨
    (l.ready = false ∧ s.hasDirectories = false ∧
      ∃ e out, s.run l = (.error e, l.atMoment s.moment, out)) ∨
    (l.ready = false ∧ s.hasDirectories = true ∧ (∀ place, ¬ s.Opens place) ∧
      ∃ e out, s.run l = (.error e, (l.atMoment s.moment).withPath s.logFile, out)) ∨
    (l.ready = false ∧
      ∃ place, s.Opens place ∧ ∃ out, s.run l = (.ok (), s.attached place, out)) := by
  unfold run setUp hasDirectories
  by_cases hready : l.ready = true
  · exact .inl ⟨hready, by rw [if_pos (show (l.atMoment s.moment).ready = true from hready)]⟩
  right
  rw [if_neg (show ¬ (l.atMoment s.moment).ready = true from hready)]
  rw [Bool.not_eq_true] at hready
  cases hmade : s.out.files.ensureDirectories s.directory with
  | mk result files =>
    cases result with
    | error e => exact .inl ⟨hready, rfl, e, { s.out with files := files }, rfl⟩
    | ok =>
      right
      dsimp only [atMoment]
      cases hopen : files.openForAppending (Logging.logFile s.moment s.directory) with
      | error e =>
        refine .inl ⟨hready, rfl, ?_, e, { s.out with files := files }, rfl⟩
        rintro place ⟨files', opened, hmade', hopen'⟩
        rw [hmade] at hmade'
        cases hmade'
        cases hopen.symm.trans hopen'
      | ok found =>
        obtain ⟨opened, place⟩ := found
        exact .inr ⟨hready, place, ⟨files, opened, hmade, hopen⟩, _, rfl⟩

/-- A set-up that fails leaves logging as it was, but for the path of the log file. -/
theorem run_of_error {e : StorageError} (h : (s.run l).1 = .error e) :
    l.ready = false ∧ (s.run l).2.1 =
      if s.hasDirectories then (l.atMoment s.moment).withPath s.logFile
      else l.atMoment s.moment := by
  obtain ⟨-, hrun⟩ | ⟨hready, hnone, e', out, hrun⟩ | ⟨hready, hmade, -, e', out, hrun⟩ |
    ⟨-, place, -, out, hrun⟩ := s.run_cases l
  · rw [hrun] at h
    cases h
  · rw [hrun, hnone]
    exact ⟨hready, rfl⟩
  · rw [hrun, hmade]
    exact ⟨hready, rfl⟩
  · rw [hrun] at h
    cases h

theorem run_of_ok (h : (s.run l).1 = .ok ()) : (s.run l).2.1.ready = true := by
  obtain ⟨hready, hrun⟩ | ⟨-, -, e, out, hrun⟩ | ⟨-, -, -, e, out, hrun⟩ |
    ⟨-, place, -, out, hrun⟩ := s.run_cases l
  · rw [hrun]
    exact hready
  · rw [hrun] at h
    cases h
  · rw [hrun] at h
    cases h
  · rw [hrun]
    rfl

end SetUp

/-! ### All requests -/

/-- How logging stands after some requests. Time goes on for logging that is ready. -/
structure Stands (past : List Request) (l : Logging) : Prop where
  ready_iff : l.ready = true ↔ ∃ s ∈ setUps past, ∃ place, s.Opens place
  attached_of_ready : l.ready = true →
    ∃ s ∈ setUps past, ∃ place, s.Opens place ∧ l = (s.attached place).atMoment l.moment
  sinks_of_not_ready : l.ready = false → l.sinks = []
  isSome_logPath_iff : l.logPath.isSome = true ↔ ∃ s ∈ setUps past, s.hasDirectories = true

namespace Stands

variable {past : List Request} {l : Logging} {s : SetUp}

theorem initial (m : Moment) : Stands [] { moment := m } :=
  ⟨by simp [setUps], nofun, fun _ => rfl, by simp [setUps]⟩

theorem takeDown (past : List Request) (l : Logging) : Stands (.takeDown :: past) l.takeDown :=
  ⟨by simp [Logging.takeDown, setUps], nofun, fun _ => rfl, by simp [Logging.takeDown, setUps]⟩

/-- A set-up of logging that is ready. -/
theorem of_ready (h : Stands past l) (hready : l.ready = true) :
    Stands (.setUp s :: past) (l.atMoment s.moment) := by
  obtain ⟨s', hs', place, hopens, hl⟩ := h.attached_of_ready hready
  have hmem : s' ∈ setUps (.setUp s :: past) := List.mem_cons_of_mem s hs'
  constructor
  · exact iff_of_true hready ⟨s', hmem, place, hopens⟩
  · exact fun _ => ⟨s', hmem, place, hopens, congrArg (·.atMoment s.moment) hl⟩
  · exact h.sinks_of_not_ready
  · exact iff_of_true (by rw [hl]; rfl) ⟨s', hmem, hopens.hasDirectories⟩

/-- A set-up for which a directory cannot be made. -/
theorem of_no_directories (h : Stands past l) (hready : l.ready = false)
    (hnone : s.hasDirectories = false) : Stands (.setUp s :: past) (l.atMoment s.moment) := by
  have hclosed : ¬ ∃ place, s.Opens place := by
    rintro ⟨place, hopens⟩
    exact absurd (hnone.symm.trans hopens.hasDirectories) Bool.false_ne_true
  constructor
  · rw [setUps, List.exists_mem_cons_iff, or_iff_right hclosed]
    exact h.ready_iff
  · intro h
    exact absurd (hready.symm.trans h) Bool.false_ne_true
  · exact h.sinks_of_not_ready
  · rw [setUps, List.exists_mem_cons_iff, hnone, or_iff_right Bool.false_ne_true]
    exact h.isSome_logPath_iff

/-- A set-up for which the log file cannot be opened. -/
theorem of_no_file (h : Stands past l) (hready : l.ready = false)
    (hmade : s.hasDirectories = true) (hclosed : ∀ place, ¬ s.Opens place) :
    Stands (.setUp s :: past) ((l.atMoment s.moment).withPath s.logFile) := by
  constructor
  · rw [setUps, List.exists_mem_cons_iff, or_iff_right (not_exists.2 hclosed)]
    exact h.ready_iff
  · intro h
    exact absurd (hready.symm.trans h) Bool.false_ne_true
  · exact h.sinks_of_not_ready
  · exact iff_of_true rfl ⟨s, List.mem_cons_self, hmade⟩

/-- A set-up that attaches both sinks. -/
theorem of_opens {place : Place} (hopens : s.Opens place) :
    Stands (.setUp s :: past) (s.attached place) := by
  have hmem : s ∈ setUps (.setUp s :: past) := List.mem_cons_self
  constructor
  · exact iff_of_true rfl ⟨s, hmem, place, hopens⟩
  · exact fun _ => ⟨s, hmem, place, hopens, rfl⟩
  · nofun
  · exact iff_of_true rfl ⟨s, hmem, hopens.hasDirectories⟩

theorem setUp (h : Stands past l) (s : SetUp) : Stands (.setUp s :: past) (s.run l).2.1 := by
  obtain ⟨hready, hrun⟩ | ⟨hready, hnone, e, out, hrun⟩ |
    ⟨hready, hmade, hclosed, e, out, hrun⟩ | ⟨-, place, hopens, out, hrun⟩ := s.run_cases l
  · rw [hrun]
    exact h.of_ready hready
  · rw [hrun]
    exact h.of_no_directories hready hnone
  · rw [hrun]
    exact h.of_no_file hready hmade hclosed
  · rw [hrun]
    exact .of_opens hopens

end Stands

theorem stands_after (m : Moment) (past : List Request) : Stands past (after m past) := by
  induction past with
  | nil => exact .initial m
  | cons q past ih =>
    cases q with
    | setUp s => exact ih.setUp s
    | takeDown => exact .takeDown past (after m past)

/-- Setting logging up is all or nothing, but for the path of the log file. Whatever was asked
before, at whatever moments, and whatever files there were: logging is ready exactly if a set-up
could open its log file since logging was last taken down. Logging that is ready has just the two
sinks of such a set-up, and the path of its log file; logging that is not ready has no sinks. A path
is known exactly if a set-up had its directories since logging was last taken down. A set-up that
fails leaves logging as it was, except that the path of the log file is known from then on if the
directories are there; one that does not fail leaves logging ready. -/
theorem setUp_after (m : Moment) (past : List Request) :
    Stands past (after m past) ∧
      ∀ s : SetUp,
        (∀ e, (s.run (after m past)).1 = .error e →
          (after m past).ready = false ∧ (s.run (after m past)).2.1 =
            if s.hasDirectories then ((after m past).atMoment s.moment).withPath s.logFile
            else (after m past).atMoment s.moment) ∧
        ((s.run (after m past)).1 = .ok () → (s.run (after m past)).2.1.ready = true) :=
  ⟨stands_after m past, fun _ => ⟨fun _ => SetUp.run_of_error, SetUp.run_of_ok⟩⟩

/-- A moment at night. -/
def night : Moment :=
  ⟨2024, 1, 2, 3, 4, 5⟩

/-- A set-up in a directory for logs. -/
def nest (out : Output) : SetUp where
  directory := { anchor := .root, parts := ["tmp", "nest"] }
  debug := false
  moment := night
  out := out

/-- A set-up in the directory that has the name of the log file of the other. -/
def nested (out : Output) : SetUp where
  directory := { anchor := .root, parts := ["tmp", "nest", "aligncheck_20240102_030405.log"] }
  debug := true
  moment := night
  out := out

/-- What the inner set-up leaves behind where there was nothing. -/
def nestFiles : Output :=
  ((nested { files := {} }).run { moment := night }).2.2

/-- The inner set-up, and logging taken down again. -/
def nesting : List Request :=
  [.takeDown, .setUp (nested { files := {} })]

/-- After that the outer set-up fails, since its log file is a directory, and the inner one is as
good as before. -/
theorem setUp_nesting :
    ((nest nestFiles).run (after night nesting)).1 =
        .error (.isADirectory "/tmp/nest/aligncheck_20240102_030405.log") ∧
      ((nest nestFiles).run (after night nesting)).2.1 =
        ((after night nesting).atMoment night).withPath (nest nestFiles).logFile ∧
      ((nested nestFiles).run (after night nesting)).1 = .ok () ∧
      ((nested nestFiles).run (after night nesting)).2.1.ready = true ∧
      (after night nesting).sinks = [] ∧ (after night nesting).logPath.isSome = false := by
  obtain ⟨hstands, hnext⟩ := setUp_after night nesting
  have herror : ((nest nestFiles).run (after night nesting)).1 =
      .error (.isADirectory "/tmp/nest/aligncheck_20240102_030405.log") := by decide +kernel
  have hok : ((nested nestFiles).run (after night nesting)).1 = .ok () := by decide +kernel
  obtain ⟨hready, hpath⟩ := (hnext (nest nestFiles)).1 _ herror
  rw [if_pos (by decide +kernel)] at hpath
  refine ⟨herror, hpath, hok, (hnext (nested nestFiles)).2 hok,
    hstands.sinks_of_not_ready hready, ?_⟩
  rw [Bool.eq_false_iff, Ne, hstands.isSome_logPath_iff]
  simp [nesting, setUps]

/-- The outer set-up leaves a path behind where there was none, and logging does not get ready. -/
theorem logPath_nesting :
    (after night nesting).logPath = none ∧
      ((nest nestFiles).run (after night nesting)).1 ≠ .ok () ∧
      ((nest nestFiles).run (after night nesting)).2.1.ready = false ∧
      ((nest nestFiles).run (after night nesting)).2.1.logPath =
        some { anchor := .root, parts := ["tmp", "nest", "aligncheck_20240102_030405.log"] } := by
  decide +kernel

end PaddingAudit.Logging
