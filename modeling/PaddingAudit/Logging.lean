import PaddingAudit.FileTree
import PaddingAudit.Journal
import PaddingAudit.Moment

/-!
# Logging

Where events go. Until logging is set up, and after it is taken down, only warnings and worse
are shown, and as bare messages. In between, the console shows what reaches its threshold, and a log
file gets everything.
-/

namespace PaddingAudit

/-- What receives events: the console from some level on, or a file. -/
inductive Sink where
  | console (threshold : Level)
  | file (place : Place)
  deriving DecidableEq, Repr, Inhabited

structure Logging where
  moment : Moment
  threshold : Level := .warning
  sinks : List Sink := []
  logPath : Option Path := none
  ready : Bool := false
  deriving DecidableEq, Repr, Inhabited

namespace Logging

def logFile (m : Moment) (directory : Path) : Path :=
  directory.join (Path.ofString ("aligncheck_" ++ m.fileStamp ++ ".log"))

def consoleLine (e : Event) : String :=
  e.level.name ++ ": " ++ e.message ++ "\n"

def fileLine (m : Moment) (e : Event) : String :=
  m.lineStamp ++ " - " ++ e.channel.text ++ " - " ++ e.level.name ++ " - " ++ e.message ++ "\n"

/-- What events write to: the files, and the text on the error stream. -/
structure Output where
  files : FileTree
  errors : String := ""
  deriving Inhabited

/-- Gives an event to a sink. -/
def feed (m : Moment) (e : Event) (out : Output) : Sink → Output
  | .console threshold =>
    if e.level.reaches threshold then { out with errors := out.errors ++ consoleLine e } else out
  | .file place => { out with files := out.files.append place (fileLine m e) }

/-- Gives an event to all sinks. Where there are none, what is worth a warning is shown as a last
resort. -/
def emit (l : Logging) (e : Event) (out : Output) : Output :=
  if !e.level.reaches l.threshold then out
  else if l.sinks.isEmpty then
    if e.level.reaches .warning then { out with errors := out.errors ++ e.message ++ "\n" } else out
  else l.sinks.foldl (feed l.moment e) out

def emitAll (l : Logging) (events : List Event) (out : Output) : Output :=
  events.foldl (fun out e => l.emit e out) out

/-- Sets logging up: the console, and a log file in a directory. Once set up, logging stays as it is
until it is taken down. The path of the log file is known as soon as its directory is there. -/
def setUp (l : Logging) (directory : Path) (debug : Bool) (out : Output) :
    Except StorageError Unit × Logging × Output :=
  if l.ready then (.ok (), l, out)
  else
    match out.files.ensureDirectories directory with
    | (.error e, files) => (.error e, l, { out with files := files })
    | (.ok (), files) =>
      let path := logFile l.moment directory
      match files.openForAppending path with
      | .error e => (.error e, { l with logPath := some path }, { out with files := files })
      | .ok (opened, place) =>
        let ready : Logging :=
          { moment := l.moment
            threshold := .debug
            sinks := [.console (if debug then .debug else .info), .file place]
            logPath := some path
            ready := true }
        (.ok (), ready, ready.emit (.logOpened path debug) { out with files := opened })

/-- Takes logging down. The threshold stays as it is. -/
def takeDown (l : Logging) : Logging :=
  { moment := l.moment, threshold := l.threshold }

end Logging

end PaddingAudit
