import PaddingAudit.Command
import PaddingAudit.PlainVariables
import Std.Time

/-!
# The program

The outermost layer: it looks at the files and variables that a run can ask for, runs the command on
them, and writes what the run leaves behind. Files of variables are read as plain lines. An image is
read as far as its header goes; its debugging information is for a decoder to supply.
-/

namespace PaddingAudit.Program

/-- The number in two bytes, the less significant first if `little` says so. -/
def pair (little : Bool) (a b : UInt8) : Nat :=
  if little then a.toNat + 256 * b.toNat else 256 * a.toNat + b.toNat

/-- The machine of a number in a header. -/
def machineOf : Nat → Machine
  | 3 => .named "EM_386"
  | 40 => .named "EM_ARM"
  | 62 => .named "EM_X86_64"
  | 183 => .named "EM_AARCH64"
  | n => .numbered n

/-- What a file with some bytes holds. -/
def contentOf (bytes : ByteArray) : FileContent :=
  let byte (n : Nat) : UInt8 := bytes.data.getD n 0
  if [byte 0, byte 1, byte 2, byte 3] == [0x7F, 0x45, 0x4C, 0x46] then
    let little := byte 5 == 1
    .image
      { elfClass := if byte 4 == 1 then 32 else if byte 4 == 2 then 64 else (byte 4).toNat
        machine := machineOf (pair little (byte 18) (byte 19))
        littleEndian := little
        debug := .broken "debugging information needs a decoder" }
  else .text (Text.Utf8.decode bytes.data.toList)

/-- What there is at a path: a file that cannot be read although it is there is a directory. -/
def nodeAt (path : String) : IO (Option FileNode) := do
  try
    return some (.file (contentOf (← IO.FS.readBinFile path)))
  catch
    | .noFileOrDirectory .. => return none
    | _ => return some .directory

/-- The variables that a run can ask for. -/
def variableNames : List String :=
  ["ELF_FILE_PATH", "MAX_ALIGN", "VERBOSE", "DEBUG", "LOG_DIR", "ALIGNCHECK_INCLUDE_ANONYMOUS",
   "ALIGNCHECK_DEDUPLICATE_RECORDS", "ALIGNCHECK_TYPE_CACHE_SIZE",
   PlainVariables.offSwitch]

/-- The environment, as far as a run can ask for it. -/
def environment : IO Environment := do
  let found ← variableNames.filterMapM fun key => do
    return (← IO.getEnv key).map fun value => (key, value)
  return { bindings := found }

/-- A file tree with what there is along a path. -/
def look (t : FileTree) (p : Path) : IO FileTree := do
  let mut tree := t
  for n in List.range p.parts.length do
    let around : Path := { p with parts := p.parts.take n }
    let part : Path := { p with parts := p.parts.take (n + 1) }
    match tree.locate around, tree.find part, p.parts[n]? with
    | .ok place, .ok none, some name =>
      if let some node ← nodeAt part.text then
        tree := tree.plant (place ++ [name]) node
    | _, _, _ => pure ()
  return tree

/-- The file tree that has the directory in which the program runs. -/
def ground : IO FileTree := do
  let place := (Path.ofString (← IO.currentDir).toString).parts
  return ({ workingDirectory := place } : FileTree).plant place .directory

/-- The paths that a run can ask for; the log file is asked for by its absolute path. -/
def paths (t : FileTree) (words : List String) (env : Environment) (moment : Moment) : List Path :=
  match Arguments.parse words with
  | .error _ => []
  | .ok args =>
    match Settings.ofChoices args.choices env with
    | .error _ => []
    | .ok s =>
      s.files ++ s.logDirectory.toList.flatMap fun d => [d, t.absolute (Logging.logFile moment d)]

/-- The world in which a run takes place. -/
def world (words : List String) (moment : Moment) : IO World := do
  let env ← environment
  let tree ← look (← ground) Settings.variablesFile
  let loading := Environment.loadFile PlainVariables.load tree Settings.variablesFile
  let (_, loaded) := loading.outcome env
  let tree ← (paths tree words loaded.state moment).foldlM look tree
  return { environment := env, logging := { moment := moment }, output := { files := tree } }

/-- The moment at which the program runs. -/
def now : IO Moment := do
  let dt ← Std.Time.PlainDateTime.now
  return {
    year := dt.year.toInt.toNat
    month := dt.month.val.toNat
    day := dt.day.val.toNat
    hour := dt.hour.val.toNat
    minute := dt.minute.val.toNat
    second := dt.second.val.toNat }

def writeLog (w : World) : IO Unit := do
  if let some path := w.logging.logPath then
    let whole := w.files.absolute path
    if let .ok (some (.file (.text content))) := w.files.find whole then
      IO.FS.createDirAll ({ path with parts := path.parts.dropLast } : Path).text
      IO.FS.writeFile whole.text content

end PaddingAudit.Program

def main (words : List String) : IO UInt32 := do
  let start ← PaddingAudit.Program.world words (← PaddingAudit.Program.now)
  let (ending, w) := PaddingAudit.Command.run PaddingAudit.PlainVariables.load words start
  PaddingAudit.Program.writeLog w
  (← IO.getStdout).putStr w.stdout
  (← IO.getStderr).putStr w.output.errors
  return ending.status.toUInt32
