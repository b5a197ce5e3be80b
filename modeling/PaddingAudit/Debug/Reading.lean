import PaddingAudit.Action
import PaddingAudit.Debug.Info

/-!
# Reading entries

Reading an integer or following a type reference never fails: what cannot be read counts as missing,
and the journal tells of it. Reading a name fails if the name is a number too long to be written.
-/

namespace PaddingAudit.Debug

variable {ε σ : Type}

namespace Entry

/-- The value of an attribute that is present but no integer. -/
def nonNumeric? (e : Entry) (key : Key) : Option Value :=
  match e.attribute? key with
  | some a => if a.value.asInt?.isNone then some a.value else none
  | none => none

/-- The integer value of an attribute; a value that is none is told of, as it can be: what is no
integer is never too long. -/
def readInt (e : Entry) (key : Key) : Action ε σ (Option Int) := do
  if let some value := e.nonNumeric? key then
    Action.log (.nonNumeric key e.offset value)
  return e.int? key

/-- The alignment that the program asks for; zero asks for nothing. -/
def explicitAlignment? (e : Entry) : Option Int :=
  (e.int? .alignment).filter (· != 0)

/-- The alignment that the program asks for, read with notice of values that are no integer. -/
def readAlignment (e : Entry) : Action ε σ (Option Int) := do
  let _ ← e.readInt .alignment
  return e.explicitAlignment?

def readName (e : Entry) : Action Failure σ (Option String) :=
  Action.write e.nameIsWritable e.name?

/-- Where the type reference of an entry leads. The cause of a broken one is a text that comes with
it. -/
inductive Reference where
  | void
  | site (s : Site)
  | broken (cause : String)
  deriving Inhabited

/-- The entry at the offset a value stands for. -/
def lookUp (sites : List Site) (value : Value) : Reference :=
  let at? (offset : Int) : Reference :=
    match siteAt? sites offset with
    | some s => .site s
    | none => .broken value.literal
  match value with
  | .int n => at? n
  | .bool b => at? (if b then 1 else 0)
  | .list _ => .broken "unhashable type: 'list'"
  | _ => .broken value.literal

def reference (e : Entry) (sites : List Site) : Reference :=
  match e.attribute? .type with
  | some a => lookUp sites a.value
  | none => .void

def target? (e : Entry) (sites : List Site) : Option Site :=
  match e.reference sites with
  | .site s => some s
  | _ => none

/-- The type an entry refers to; a reference that leads nowhere is told of. -/
def followType (e : Entry) (sites : List Site) : Action ε σ (Option Site) := do
  if let .broken cause := e.reference sites then
    Action.log (.brokenReference e.offset cause)
  return e.target? sites

end Entry

def Site.readQualifiedName (s : Site) : Action Failure σ (Option String) :=
  Action.write s.qualifiedNameIsWritable s.qualifiedName?

def CompilationUnit.readName (u : CompilationUnit) : Action Failure σ String :=
  Action.write u.top.nameIsWritable u.displayName

end PaddingAudit.Debug
