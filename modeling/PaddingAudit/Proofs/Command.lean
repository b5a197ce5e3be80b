import PaddingAudit.Command
import PaddingAudit.PlainVariables
import PaddingAudit.Proofs.Contract
import PaddingAudit.Proofs.FileTree

/-!
# Runs over several files

A run checks its files one after the other, and each check starts anew. What a check comes to
depends on the image in its file and on the environment, and neither is changed by logging or by
other checks. So a run comes to what its files come to one by one: their findings in the order of
the files are printed at the very end, and nothing is if one of the checks fails or if a number in
the report is too long to be written.
-/

namespace PaddingAudit

open FileTree

namespace World

/-- A world to which nothing has happened but logging. -/
structure Follows (w w' : World) : Prop where
  files : Keeps w.files w'.files
  environment_eq : w'.environment = w.environment
  stdout_eq : w'.stdout = w.stdout

namespace Follows

variable {w w' w'' : World}

theorem refl (w : World) : Follows w w :=
  ⟨.refl _, rfl, rfl⟩

theorem trans (h : Follows w w') (h' : Follows w' w'') : Follows w w'' :=
  ⟨h.files.trans h'.files, h'.environment_eq.trans h.environment_eq,
    h'.stdout_eq.trans h.stdout_eq⟩

theorem log (h : Follows w w') (e : Event) : Follows w (w'.log e) :=
  h.trans ⟨Logging.keeps_emit _ e _, rfl, rfl⟩

theorem logAll (h : Follows w w') (events : List Event) : Follows w (w'.logAll events) :=
  h.trans ⟨Logging.keeps_emitAll _ events _, rfl, rfl⟩

end Follows

end World

namespace Command

open World

variable {s : Settings} {p : Path} {w w' : World}

/-- What the check of a file comes to if it is the only one, with the cap and the names that are
set. -/
def alone (s : Settings) (w : World) (p : Path) : Except Failure (List Finding) :=
  let check : Check := { path := p, maxAlign := s.maxAlign.value?, names := s.names }
  ((check.run w.files w.environment).outcome none).1

/-- The order of findings that is set. -/
def orderOf (s : Settings) : SortOrder :=
  if s.sortBy = "savings" then .savings else .location

/-- What there is to print for findings: the JSON document and a line feed, or the lines of the
listing with a line feed after each. There is nothing if a number in it is too long to be written.
-/
inductive Renders (s : Settings) (findings : List Finding) : String → Prop
  | json {document : String} (hformat : s.format = "json")
      (hdocument : Report.document findings (orderOf s) = .ok document) :
      Renders s findings (document ++ "\n")
  | lines {lines : List String} (hformat : s.format ≠ "json")
      (hlines : Report.listing findings s.verbose (orderOf s) = .ok lines) :
      Renders s findings (String.join (lines.map fun line => line ++ "\n"))

/-- What is to come of a run with some settings in a world. If all files have their findings when
they are checked alone, all of these are printed in the order of the files; should there be no
rendering of them, nothing is printed, and the status is the same. If a check fails nothing is
printed. -/
structure Fulfils (s : Settings) (w : World) (outcome : Ending × World) : Prop where
  prints : ∀ found : Path → List Finding, (∀ p ∈ s.files, alone s w p = .ok (found p)) →
    (∀ text, Renders s (s.files.flatMap found) text → outcome.2.stdout = w.stdout ++ text) ∧
      ((∀ text, ¬ Renders s (s.files.flatMap found) text) → outcome.2.stdout = w.stdout)
  status_eq : ∀ found : Path → List Finding, (∀ p ∈ s.files, alone s w p = .ok (found p)) →
    outcome.1.status = if (s.files.flatMap found).isEmpty then 0 else 1
  fails : (∃ p ∈ s.files, ∃ e, alone s w p = .error e) →
    outcome.2.stdout = w.stdout ∧ outcome.1.status = 1

/-- The last word of a run does not change what it comes to. -/
theorem Fulfils.run {load : Environment.Loader} {words : List String} {args : Arguments}
    {w₀ : World} (hparse : Arguments.parse words = .ok args)
    (hload : loadVariables load (w₀.log (.spanStarted .command)) = (.ok (), w))
    (hsettle : settle args.choices w = .ok s) (h : Fulfils s w (carryOut s w)) :
    Fulfils s w (run load words w₀) := by
  have hobey : dispatch load words (w₀.log (.spanStarted .command)) = carryOut s w := by
    unfold dispatch obey
    rw [hparse]
    dsimp only
    rw [hload]
    dsimp only
    rw [Except.bind, hsettle]
  unfold Command.run
  rw [hobey]
  cases hend : carryOut s w with
  | mk ending w' =>
    rw [hend] at h
    cases ending with
    | exit code => exact h
    | failed e => exact ⟨h.prints, h.status_eq, h.fails⟩

end Command

end PaddingAudit
