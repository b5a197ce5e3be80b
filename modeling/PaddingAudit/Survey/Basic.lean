import PaddingAudit.Progress
import PaddingAudit.Resolver

/-!
# Surveys

A survey looks for the records in the debugging information of a program whose members could be put
in another order. This file has what a survey is set up with, the state it works on, and its view of
a single record definition: members, alignment, size and place.
-/

namespace PaddingAudit

open Debug

/-- The choices that decide which records a survey reports and how much it remembers. -/
structure Tuning where
  includeAnonymous : Bool := false
  deduplicate : Bool := true
  cacheSize : Int := 5000
  deriving DecidableEq, Repr, Inhabited

/-- What a survey is set up with. Without names it reports all records. -/
structure Survey where
  resolver : Resolver
  units : List CompilationUnit
  names : Option (List String) := none
  tuning : Tuning := {}
  deriving Inhabited

namespace Survey

/-- The survey of some debugging information for a platform. An empty list of names selects
nothing in particular, and so everything. -/
def ofInfo (info : Info) (platform : Platform) (names : List String) (tuning : Tuning) :
    Survey where
  resolver := { platform := platform, sites := info.sites }
  units := info.units
  names := if names.isEmpty then none else some names
  tuning := tuning

def platform (sv : Survey) : Platform :=
  sv.resolver.platform

/-- What a survey remembers: layouts of types, counts, and the source files of units. -/
structure State where
  cache : Cache := {}
  progress : Progress := {}
  tables : List (Int × FileTable) := []
  deriving Inhabited

/-- The state before anything was looked at. -/
def State.fresh (tuning : Tuning) : State :=
  { cache := { capacity := tuning.cacheSize } }

instance : HasProgress State where
  progress := State.progress
  withProgress := fun p s => { s with progress := p }

/-- Resolves layouts with the cache of a survey. -/
def resolving {α : Type} (x : Action Failure Cache α) : Action Failure State α :=
  x.onPart State.cache fun cache s => { s with cache := cache }

def siteAt {σ : Type} (sv : Survey) (offset : Int) : Action Failure σ Site :=
  match siteAt? sv.resolver.sites offset with
  | some s => return s
  | none => Action.fail (.noEntry offset)

/-- The unit at a position; a negative one counts from the end. -/
def unitAt {σ : Type} (sv : Survey) (position : Int) : Action Failure σ CompilationUnit :=
  let index := if position < 0 then position + sv.units.length else position
  match FileTable.item? sv.units index with
  | some u => return u
  | none => Action.fail .noUnit

/-- The name of a data member; one without a name is called after its place. -/
def memberName {σ : Type} (member : Entry) : Action Failure σ String := do
  match ← member.readName with
  | some name => return name
  | none =>
    let offset := (← member.readInt .dataMemberLocation).getD 0
    Action.write (Text.isWritable offset) ("(anonymous@" ++ Text.decimal offset ++ ")")

def fieldOf (sv : Survey) (member : Entry) : Action Failure State Field := do
  let layout ← resolving (sv.resolver.resolveMember member)
  let name ← memberName member
  return { name := name, size := layout.size, alignment := layout.alignment }

def fieldsOf (sv : Survey) (s : Site) : Action Failure State (List Field) :=
  s.members.mapM sv.fieldOf

/-- The alignment of a record with given members: what the program asks for, or else what the
members need. -/
def alignmentFor {ε σ : Type} (s : Site) (fields : List Field) : Action ε σ Int := do
  let explicit ← s.readAlignment
  return explicit.getD ((fields.map Field.alignment).max?.getD 1)

def statedSize {ε σ : Type} (s : Site) : Action ε σ Int := do
  let size ← s.readInt .byteSize
  return size.getD 0

def sizeFor {ε σ : Type} (s : Site) (alignment : Int) : Action ε σ Int := do
  return roundUp (← statedSize s) alignment

def alignmentOf (sv : Survey) (s : Site) : Action Failure State Int := do
  alignmentFor s (← sv.fieldsOf s)

def actualSizeOf (sv : Survey) (s : Site) : Action Failure State Int := do
  sizeFor s (← sv.alignmentOf s)

/-- The source files of a unit, which are worked out once. -/
def fileTable (u : CompilationUnit) : Action Failure State FileTable := do
  match (← Action.state).tables.lookup u.offset with
  | some table => return table
  | none =>
    if let .broken cause := u.lineProgram then
      Action.log (.noLineProgram u.offset cause)
    let table := FileTable.ofLineProgram u.lineProgram
    Action.modifyState fun s => { s with tables := (u.offset, table) :: s.tables }
    return table

/-- The file of a number. One that the table does not have is called after its number. -/
def fileName {σ : Type} (table : FileTable) (number : Int) : Action Failure σ String :=
  match table.file? number with
  | some file => return file
  | none => Action.write (Text.isWritable number) (FileTable.placeholder number)

/-- Where an entry is declared. -/
def locationOf (u : CompilationUnit) (e : Entry) : Action Failure State (Option Location) := do
  match ← e.readInt .declFile with
  | none => return none
  | some number =>
    let file ← fileName (← fileTable u) number
    let line ← e.readInt .declLine
    let column ← e.readInt .declColumn
    return some { file := file, line := line.getD 0, column := column.getD 0 }

end Survey

end PaddingAudit
