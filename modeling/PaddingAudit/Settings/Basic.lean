import PaddingAudit.Report
import PaddingAudit.Settings.Environment
import PaddingAudit.Settings.Given

/-!
# Settings

What a run is asked to do. Each setting has a default, which the environment can replace, which
explicit choices can replace.
-/

namespace PaddingAudit

/-- The settings of a run. There is no log directory if the choice of one was left blank. -/
structure Settings where
  files : List Path := []
  verbose : Bool := false
  debug : Bool := false
  maxAlign : Given Int := .absent
  names : List String := []
  sortBy : String := "location"
  format : String := "text"
  logDirectory : Option Path := some { parts := ["logs"] }
  deriving DecidableEq, Repr, Inhabited

/-- Explicit choices. An empty list, and a flag that is not set, chooses nothing. -/
structure Choices where
  files : List Path := []
  verbose : Bool := false
  debug : Bool := false
  maxAlign : Given Int := .absent
  names : List String := []
  sortBy : Given String := .absent
  format : Given String := .absent
  logDirectory : Given Path := .absent
  deriving DecidableEq, Repr, Inhabited

namespace Settings

/-- A value that sets a flag, in whatever case. -/
def setsFlag (value : String) : Bool :=
  ["true", "1", "yes"].contains (Text.lowerAscii (Text.strip value))

/-- The alignment cap of the environment; a blank value means none. -/
def maxAlignOf (env : Environment) : Except SettingsError (Option Int) :=
  let text := Text.strip ((env.get? "MAX_ALIGN").getD "")
  if text.isEmpty then .ok none
  else
    match Text.integer? text with
    | some n => .ok (some n)
    | none => .error (.maxAlignText text)

def ofEnvironment (env : Environment) : Except SettingsError Settings := do
  let maxAlign ← maxAlignOf env
  return {
    files := (Text.commaList ((env.get? "ELF_FILE_PATH").getD "")).map Path.ofString
    verbose := setsFlag ((env.get? "VERBOSE").getD "false")
    debug := setsFlag ((env.get? "DEBUG").getD "false")
    maxAlign := .ofOption maxAlign
    logDirectory := some (Path.ofString ((env.get? "LOG_DIR").getD "logs")) }

def variablesFile : Path := { parts := [".env"] }

def choose (s : Settings) (c : Choices) : Settings where
  files := if c.files.isEmpty then s.files else c.files
  verbose := c.verbose || s.verbose
  debug := c.debug || s.debug
  maxAlign := c.maxAlign.orElse s.maxAlign
  names := if c.names.isEmpty then s.names else c.names
  sortBy := c.sortBy.textOr s.sortBy
  format := c.format.textOr s.format
  logDirectory := if c.logDirectory = .absent then s.logDirectory else c.logDirectory.value?

/-- The settings for explicit choices on top of those of the environment. -/
def ofChoices (c : Choices) (env : Environment) : Except SettingsError Settings := do
  return (← ofEnvironment env).choose c

/-! ### Validation -/

def formats : List String := ["text", "json"]

/-- A positive number with a single bit is a power of two: taking one away clears that bit. -/
def isPowerOfTwo (n : Int) : Bool :=
  decide (1 ≤ n) && n.toNat &&& (n.toNat - 1) == 0

def fileProblem? (files : FileTree) (p : Path) : Option Failure :=
  match files.find p with
  | .error e => some (.storage e)
  | .ok none => some (.settings (.fileMissing p))
  | .ok (some .directory) => some (.settings (.notAFile p))
  | .ok (some (.file _)) => none

def capProblem? : Given Int → Option Failure
  | .absent => none
  | .blank => some .blankCap
  | .value n => if isPowerOfTwo n then none else some (.settings (.badMaxAlign n))

def sortProblem? (name : String) : Option Failure :=
  if SortOrder.names.contains name then none else some (.settings (.unknownSort name))

def formatProblem? (name : String) : Option Failure :=
  if formats.contains name then none else some (.settings (.unknownFormat name))

def problem? (s : Settings) (files : FileTree) : Option Failure :=
  if s.files.isEmpty then some (.settings .noFiles)
  else
    s.files.findSome? (fileProblem? files) <|> capProblem? s.maxAlign <|>
      sortProblem? s.sortBy <|> formatProblem? s.format

def validate (s : Settings) (files : FileTree) : Except Failure Unit :=
  match s.problem? files with
  | some e => .error e
  | none => .ok ()

end Settings

end PaddingAudit
