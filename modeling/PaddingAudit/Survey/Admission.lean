import PaddingAudit.Survey.Overlap

/-!
# Admission of records

A survey reports the record definitions whose members can be put in another order freely and whose
sizes tell the whole story. The others are skipped, each for one reason.
-/

namespace PaddingAudit.Survey

open Debug

/-- Whether a record is among the names asked for, with its scopes or without. -/
def selects (sv : Survey) (s : Site) : Bool :=
  match sv.names with
  | none => true
  | some names => s.qualifiedName?.any names.contains || s.name?.any names.contains

/-- The first child that fixes the order of the members: a base class comes before all members, and
bitfields share storage units. -/
def fixedOrder? : List Entry → Option Skip
  | [] => none
  | child :: children =>
    if child.isBaseClass then some .baseClasses
    else if child.isDataMember && child.isBitfield then some .bitfields
    else fixedOrder? children

/-- The reason to skip a definition that can be seen without resolving types. -/
def definitionSkip? (sv : Survey) (s : Site) : Option Skip :=
  if s.isDeclaration then some .declaration
  else if !s.has .byteSize then some .noSize
  else if s.qualifiedName?.isNone && !sv.tuning.includeAnonymous then some .anonymous
  else fixedOrder? s.children

/-- The reason to skip a record for its layout. The padding of a record aligned beyond the platform
is asked for by the program. -/
def layoutSkip (sv : Survey) (s : Site) (fields : List Field) (alignment : Int) :
    Action Failure State (Option Skip) := do
  if sv.platform.maxAlign < alignment then
    return some (.overAligned alignment sv.platform.maxAlign)
  else if ← hasOverlap s fields then
    return some .overlapping
  else
    return none

/-- What the journal calls a definition that is skipped at first sight. -/
def plainLabel (s : Site) : String :=
  match s.qualifiedName? with
  | some name => if name.isEmpty then "anonymous record" else name
  | none => "anonymous record"

/-- What the journal calls a record that is skipped for its members. -/
def strictLabel (s : Site) : String :=
  s.qualifiedName?.getD "None"

def skip (label : String) (s : Site) (reason : Skip) : Action Failure State (Option Record) := do
  Action.tell (.recordSkipped label s.offset reason)
  Progress.countSkipped
  return none

/-- The name of a record; one without a name is called after its offset. -/
def recordName (s : Site) : String :=
  match s.qualifiedName? with
  | some name => if name.isEmpty then "(anonymous@" ++ Text.hex s.offset ++ ")" else name
  | none => "(anonymous@" ++ Text.hex s.offset ++ ")"

/-- The record at a site in a unit, if it is to be reported. -/
def recordOf (sv : Survey) (u : CompilationUnit) (s : Site) (unit : String) :
    Action Failure State (Option Record) := do
  -- The qualified name goes into all texts below, those of the journal and the name of the record.
  let _ ← s.readQualifiedName
  if !sv.selects s then
    return none
  else if let some reason := sv.definitionSkip? s then
    skip (plainLabel s) s reason
  else
    let fields ← sv.fieldsOf s
    if fields.isEmpty then
      skip (strictLabel s) s .noMembers
    else
      let alignment ← alignmentFor s fields
      match ← sv.layoutSkip s fields alignment with
      | some reason => skip (strictLabel s) s reason
      | none =>
        let size ← sizeFor s alignment
        let location ← locationOf u s.toEntry
        return some
          { name := recordName s
            fields := fields
            actualSize := size
            alignment := alignment
            location := location
            unit := unit }

end PaddingAudit.Survey
