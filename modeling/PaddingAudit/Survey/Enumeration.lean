import PaddingAudit.Analysis
import PaddingAudit.Survey.Admission

/-!
# Enumeration of records

A survey walks through the compilation units and hands on the records one by one as it comes upon
them. Whoever receives the records may stop the walk at any record; the walk then ends there and
then, and the journal has no word about the rest.
-/

namespace PaddingAudit.Survey

open Debug

/-- What makes two reported records the same. -/
abbrev Identity := String × Option Location

def identity (r : Record) : Identity :=
  (r.name, r.location)

variable {ι β : Type}

/-- What a walk finds at a visit. A unit whose name cannot be written already fails at the first
visit of all, before its top entry is counted. -/
def recordAt (sv : Survey) (u : CompilationUnit) (visit : Visit) :
    Action Failure State (Option Record) := do
  let unit ← u.readName
  match visit with
  | .broken message => Action.fail (.brokenEntry message)
  | .gap =>
    Progress.countEntry
    return none
  | .site s =>
    Progress.countEntry
    if s.tagged Tag.isRecord then
      sv.recordOf u s unit
    else
      return none

def isRepeated (sv : Survey) (seen : List Identity) (r : Record) : Bool :=
  sv.tuning.deduplicate && seen.contains (identity r)

section Fold

variable (sv : Survey) (step : β → Record → Action Failure State (Except ι β))

/-- Goes through the visits of a unit and hands on the records. The identities of the records handed
on so far are carried along. -/
def foldVisits (u : CompilationUnit) : List Visit → List Identity → β →
    Action Failure State (Except ι (List Identity × β))
  | [], seen, b => return .ok (seen, b)
  | visit :: visits, seen, b => do
    match ← sv.recordAt u visit with
    | none => foldVisits u visits seen b
    | some r =>
      if sv.isRepeated seen r then
        foldVisits u visits seen b
      else
        Progress.countRecord
        match ← step b r with
        | .error interruption => return .error interruption
        | .ok next => foldVisits u visits (identity r :: seen) next

def foldUnits : List CompilationUnit → List Identity → β →
    Action Failure State (Except ι (List Identity × β))
  | [], seen, b => return .ok (seen, b)
  | u :: us, seen, b => do
    match ← Progress.trackUnit u.offset (foldVisits sv step u u.visits seen b) with
    | .error interruption => return .error interruption
    | .ok (reported, next) => foldUnits us reported next

/-- Tells the counts of a walk that has come to its end, and the figures of the cache. -/
def closeWalk : Action Failure State Unit := do
  Progress.summarise
  Action.tell (.cacheUsed (← Action.state).cache.stats)

/-- Hands all records of a survey on to `step`, which may interrupt. -/
def foldRecords (b : β) : Action Failure State (Except ι β) := do
  match ← foldUnits sv step sv.units [] b with
  | .error interruption => return .error interruption
  | .ok (_, result) =>
    closeWalk
    return .ok result

end Fold

def records (sv : Survey) : Action Failure State (List Record) := do
  match ← sv.foldRecords (ι := Empty) (fun rs r => return .ok (rs ++ [r])) [] with
  | .ok rs => return rs

/-- The first records of a survey, at most `limit` of them. The walk goes no further than to the
last record wanted, and does not even start if none is. -/
def firstRecords (sv : Survey) (limit : Nat) : Action Failure State (List Record) := do
  if limit = 0 then
    return []
  else
    let step (rs : List Record) (r : Record) : Action Failure State (Except (List Record) _) :=
      return if rs.length + 1 < limit then .ok (rs ++ [r]) else .error (rs ++ [r])
    match ← sv.foldRecords step [] with
    | .ok rs => return rs
    | .error rs => return rs

/-- The findings of a survey. Each record is diagnosed as it is handed on. -/
def findings (sv : Survey) : Action Failure State (List Finding) :=
  Action.timed .analysis (fun e => some e.message) do
    Tally.close (← sv.foldRecords (Tally.diagnose sv.platform.maxAlign) {})

end PaddingAudit.Survey
