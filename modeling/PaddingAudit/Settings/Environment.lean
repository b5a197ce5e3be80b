import PaddingAudit.FileTree
import PaddingAudit.Survey.Basic

/-!
# The environment

The variables of a process, the files of variables that add to them, and the tuning of surveys
through them.
-/

namespace PaddingAudit

structure Environment where
  bindings : List (String × String) := []
  deriving DecidableEq, Repr, Inhabited

namespace Environment

def get? (env : Environment) (key : String) : Option String :=
  env.bindings.lookup key

def set (env : Environment) (key value : String) : Environment where
  bindings := (key, value) :: env.bindings.filter fun entry => entry.1 != key

/-- What keeps a variable from being set. -/
def obstacle? (key value : String) : Option VariableError :=
  if Text.hasNull key || Text.hasNull value then some .nullByte
  else if key.contains '=' then some .equalsInName
  else if key.isEmpty then some .noName
  else none

def assign (key value : String) : Action Failure Environment Unit :=
  match obstacle? key value with
  | some e => Action.fail (.settings (.badVariable e))
  | none => Action.modifyState fun env => env.set key value

/-- A library that reads a file of variables and sets those that are not set yet. -/
abbrev Loader := FileNode → Action Failure Environment Unit

/-- Has the variables of the file at a path loaded, if there is one. -/
def loadFile (load : Loader) (files : FileTree) (p : Path) : Action Failure Environment Unit :=
  match files.find p with
  | .error e => Action.fail (.storage e)
  | .ok none => return ()
  | .ok (some node) => load node

end Environment

namespace Tuning

/-- A variable that switches something: it does so if it has one of four values, in whatever
case. -/
def switch (env : Environment) (key : String) (default : Bool) : Bool :=
  match env.get? key with
  | some value => ["true", "1", "yes", "on"].contains (Text.lowerAscii value)
  | none => default

/-- The tuning that the environment asks for. -/
def ofEnvironment (env : Environment) : Except SettingsError Tuning :=
  let base : Tuning := {}
  let tuning : Tuning :=
    { base with
      includeAnonymous := switch env "ALIGNCHECK_INCLUDE_ANONYMOUS" base.includeAnonymous
      deduplicate := switch env "ALIGNCHECK_DEDUPLICATE_RECORDS" base.deduplicate }
  match env.get? "ALIGNCHECK_TYPE_CACHE_SIZE" with
  | none => .ok tuning
  | some text =>
    match Text.integer? text with
    | some size => .ok { tuning with cacheSize := size }
    | none => .error (.cacheSizeText text)

end Tuning

end PaddingAudit
