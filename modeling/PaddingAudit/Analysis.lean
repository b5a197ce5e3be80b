import PaddingAudit.Action

/-!
# Analysis of records

Records are diagnosed one by one, and the findings are collected in the order of the records. The
first record that breaks the contract, or that cannot be told, ends an analysis.
-/

namespace PaddingAudit

/-- The state of an analysis: how many records were diagnosed, and with which findings. -/
structure Tally where
  checked : Nat := 0
  findings : List Finding := []
  deriving DecidableEq, Repr, Inhabited

namespace Tally

variable {ε σ : Type}

def add (t : Tally) (finding : Option Finding) : Tally where
  checked := t.checked + 1
  findings := t.findings ++ finding.toList

/-- Diagnoses a record and adds the outcome to a tally. -/
def diagnose (cap : Int) (t : Tally) (r : Record) : Action ε σ (Except Failure Tally) := do
  match PaddingAudit.diagnose r cap with
  | .error e =>
    -- What is wrong with the record may itself be too long to be told.
    return .error (if ← Action.permits e.isWritable then .contract e else .unwritable)
  | .ok none => return .ok (t.add none)
  | .ok (some finding) =>
    let event : Event :=
      .shrinkable r.name finding.minimalSize r.actualSize (r.effectiveAlignment cap)
    if ← Action.permits event.isWritable then
      Action.log event
      return .ok (t.add (some finding))
    else
      return .error .unwritable

def diagnoseAll (cap : Int) : Tally → List Record → Action ε σ (Except Failure Tally)
  | t, [] => return .ok t
  | t, r :: rs => do
    match ← t.diagnose cap r with
    | .ok next => next.diagnoseAll cap rs
    | .error e => return .error e

/-- The findings of an analysis that came to its end. -/
def close : Except Failure Tally → Action Failure σ (List Finding)
  | .error e => Action.fail e
  | .ok t => do
    Action.log (.analysed t.checked t.findings.length)
    return t.findings

end Tally

def analyse {σ : Type} (platform : Platform) (records : List Record) :
    Action Failure σ (List Finding) := do
  Tally.close (← Tally.diagnoseAll platform.maxAlign {} records)

end PaddingAudit
