import PaddingAudit.Arguments.Usage
import PaddingAudit.Check
import PaddingAudit.Logging

/-!
# The command

The whole run of the program as a function: from the words of the command line, the environment and
the files to the texts on the two output streams, the log file and the exit code. The exit code is 0
if no record could be smaller, 1 if one could or the run failed, and 2 if the arguments make no
sense.
-/

namespace PaddingAudit

/-- What a run works on and leaves behind. -/
structure World where
  environment : Environment := {}
  logging : Logging
  output : Logging.Output
  stdout : String := ""
  deriving Inhabited

namespace World

def files (w : World) : FileTree :=
  w.output.files

def log (w : World) (e : Event) : World :=
  { w with output := w.logging.emit e w.output }

def logAll (w : World) (events : List Event) : World :=
  { w with output := w.logging.emitAll events w.output }

def print (w : World) (text : String) : World :=
  { w with stdout := w.stdout ++ text }

def printError (w : World) (text : String) : World :=
  { w with output := { w.output with errors := w.output.errors ++ text } }

end World

namespace Command

inductive Ending where
  | exit (code : Nat)
  | failed (e : Failure)
  deriving DecidableEq, Repr, Inhabited

/-- The exit status of a run. A failure that nobody has dealt with counts as one. -/
def Ending.status : Ending → Nat
  | .exit code => code
  | .failed _ => 1

/-- The check of a file under some settings. -/
def checkOf (s : Settings) (p : Path) : Check where
  path := p
  maxAlign := s.maxAlign.value?
  names := s.names

def checkFile (s : Settings) (p : Path) (w : World) : Except Failure (List Finding) × World :=
  let (result, scene) := ((checkOf s p).run w.files w.environment).outcome none
  (result, w.logAll scene.journal.toList)

/-- Checks files one after the other and puts their findings together. The first failure ends it. -/
def checkFiles (s : Settings) : List Path → List Finding → World →
    Except Failure (List Finding) × World
  | [], findings, w => (.ok findings, w)
  | p :: ps, findings, w =>
    match checkFile s p w with
    | (.error e, w) => (.error e, w)
    | (.ok found, w) => checkFiles s ps (findings ++ found) (w.log (.fileChecked p found.length))

def report (s : Settings) (findings : List Finding) : Except Failure String := do
  let order := SortOrder.ofName s.sortBy
  if s.format == "json" then
    return (← Report.document findings order) ++ "\n"
  else
    return String.join ((← Report.listing findings s.verbose order).map fun line => line ++ "\n")

/-- Stands for the trace of a failure, which is shown in debug mode. -/
def traceMark : String := "<traceback>\n"

/-- Ends a run for which no file could be checked to the end. -/
def abort (s : Settings) (e : Failure) (w : World) : Ending × World :=
  let w := w.log (.fatal e.message)
  (.exit 1, if s.debug then w.printError traceMark else w)

/-- Ends a run with a report. Nothing is printed if there can be none, and even after it the savings
of all findings together may be too much to be told. -/
def conclude (s : Settings) (findings : List Finding) (w : World) : Ending × World :=
  match report s findings with
  | .error e => (.failed e, w)
  | .ok text =>
    let w := w.print text
    let last : Event := .finished findings.length (totalSavings findings)
    if last.isWritable then (.exit (if findings.isEmpty then 0 else 1), w.log last)
    else (.failed .unwritable, w)

/-! ### The run -/

def setUpLogging (s : Settings) (w : World) : Except Failure Unit × World :=
  match s.logDirectory with
  | none => (.error .blankLogDirectory, w)
  | some directory =>
    let (result, logging, output) := w.logging.setUp directory s.debug w.output
    (result.mapError .storage, { w with logging := logging, output := output })

def carryOut (s : Settings) (w : World) : Ending × World :=
  match setUpLogging s w with
  | (.error e, w) => (.failed e, w)
  | (.ok (), w) =>
    match checkFiles s s.files [] (w.log (.filesGiven s.files)) with
    | (.error e, w) => abort s e w
    | (.ok findings, w) => conclude s findings w

/-- Loads the variables of the file that is always looked for. -/
def loadVariables (load : Environment.Loader) (w : World) : Except Failure Unit × World :=
  let (result, scene) :=
    (Environment.loadFile load w.files Settings.variablesFile).outcome w.environment
  (result, { w with environment := scene.state })

def settle (c : Choices) (w : World) : Except Failure Settings := do
  match Settings.ofChoices c w.environment with
  | .error e => .error (.settings e)
  | .ok s =>
    s.validate w.files
    return s

/-- Carries out the arguments of a command. Settings that are not accepted are said to be so; a
failure of any other kind is none of the settings. -/
def obey (load : Environment.Loader) (args : Arguments) (w : World) : Ending × World :=
  let (loaded, w) := loadVariables load w
  match loaded.bind fun () => settle args.choices w with
  | .error (.settings e) => (.exit 1, w.printError ("Configuration error: " ++ e.message ++ "\n"))
  | .error e => (.failed e, w)
  | .ok s => carryOut s w

def dispatch (load : Environment.Loader) (words : List String) (w : World) : Ending × World :=
  match Arguments.parse words with
  | .error .help => (.exit 0, w.print Arguments.help)
  | .error (.problem p) => (.exit 2, w.printError (Arguments.complaint p))
  | .ok args => obey load args w

/-- A run of the command from beginning to end. Only a failure is told at the end: an exit is what
every run comes to. -/
def run (load : Environment.Loader) (words : List String) (w : World) : Ending × World :=
  match dispatch load words (w.log (.spanStarted .command)) with
  | (.failed e, w) => (.failed e, w.log (.spanFailed .command e.message))
  | (.exit code, w) => (.exit code, w)

end Command

end PaddingAudit
