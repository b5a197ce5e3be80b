import PaddingAudit.Action

/-!
# Progress

The counts of a survey, and the telling of each compilation unit as it is entered and left.
-/

namespace PaddingAudit

/-- States that hold the counts of a survey. -/
class HasProgress (σ : Type) where
  progress : σ → Progress
  withProgress : Progress → σ → σ

instance : HasProgress Progress where
  progress := id
  withProgress := fun p _ => p

namespace Progress

variable {σ ι β : Type} [HasProgress σ]

def current : Action Failure σ Progress := do
  return HasProgress.progress (← Action.state)

def update (f : Progress → Progress) : Action Failure σ Unit :=
  Action.modifyState fun s => HasProgress.withProgress (f (HasProgress.progress s)) s

/-- Counts an entry that was come upon. -/
def countEntry : Action Failure σ Unit :=
  update fun p => { p with entries := p.entries + 1 }

/-- Counts a record that was handed on. -/
def countRecord : Action Failure σ Unit :=
  update fun p => { p with records := p.records + 1 }

/-- Counts a record definition that was left out. -/
def countSkipped : Action Failure σ Unit :=
  update fun p => { p with skipped := p.skipped + 1 }

def reset : Action Failure σ Unit :=
  update fun _ => {}

def summarise : Action Failure σ Unit := do
  Action.log (.surveyed (← current))

/-- Works on a compilation unit. The journal tells when the unit is entered, and when it is done or
has failed; work that is interrupted from outside ends without a word. -/
def trackUnit (offset : Int) (work : Action Failure σ (Except ι β)) :
    Action Failure σ (Except ι β) := do
  let before ← current
  let number := before.units + 1
  update fun p => { p with units := number }
  Action.log (.unitEntered number offset)
  match ← work.logFailure fun e => some (.unitFailed number e.message) with
  | .error interruption => return .error interruption
  | .ok result =>
    let after ← current
    Action.log (.unitDone number (after.records - before.records))
    return .ok result

end Progress

end PaddingAudit
