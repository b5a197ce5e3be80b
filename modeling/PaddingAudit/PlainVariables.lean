import PaddingAudit.Settings.Basic

/-!
# Plain files of variables

A loader for files of plain lines: each is blank, or a comment, or has a key and a value around an
equals sign. Nothing is quoted, and no value refers to another one.
-/

namespace PaddingAudit.PlainVariables

/-- The variable that a line sets. A line that starts with a number sign is a comment. -/
def ofLine? (line : String) : Option (String × String) :=
  let content := Text.strip line
  if content.startsWith "#" then none
  else
    match Text.splitAt '=' content with
    | key :: value :: more =>
      if Text.isBlankText key then none
      else some (Text.strip key, Text.strip ("=".intercalate (value :: more)))
    | _ => none

/-- The variables of a file in the order of their first lines; the last line for a key has its
value. -/
def ofText (text : String) : List (String × String) :=
  let entries := (Text.fileLines text).filterMap ofLine?
  (entries.map Prod.fst).eraseDups.filterMap fun key =>
    (entries.reverse.lookup key).map fun value => (key, value)

/-- Sets a variable that is not set; an empty value counts as set. -/
def assignDefault (key value : String) : Action Failure Environment Unit := do
  if ((← Action.state).get? key).isNone then
    Environment.assign key value

/-- The variable by which files of variables are switched off. -/
def offSwitch : String := "PYTHON_DOTENV_DISABLED"

def isSwitchedOff (env : Environment) : Bool :=
  (env.get? offSwitch).any fun value =>
    ["1", "true", "t", "yes", "y"].contains (Text.foldAscii value)

/-- Sets the variables of a file that are not set yet, unless files are switched off. One that
cannot be set ends it; those before it stay set. -/
def load : Environment.Loader
  | .file (.text text) => do
    if !isSwitchedOff (← Action.state) then
      (ofText text).forM fun entry => assignDefault entry.1 entry.2
  | _ => return ()

end PaddingAudit.PlainVariables
