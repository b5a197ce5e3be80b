import PaddingAudit.Cache
import PaddingAudit.Debug.Entry
import PaddingAudit.Image
import PaddingAudit.Survey.Skip

/-!
# The journal

Everything worth telling about a run is an event. An event has a level, a channel, under which it is
filed, and a message. The clock of a run stands still, so that a run is a function of its input;
durations are written with a fixed number of places.
-/

namespace PaddingAudit

/-- How urgent an event is. -/
inductive Level where
  | debug
  | info
  | warning
  | error
  | critical
  deriving DecidableEq, Repr, Inhabited

namespace Level

def rank : Level → Nat
  | .debug => 10
  | .info => 20
  | .warning => 30
  | .error => 40
  | .critical => 50

/-- Whether an event of level `l` passes a threshold. -/
def reaches (l threshold : Level) : Bool :=
  threshold.rank ≤ l.rank

def name : Level → String
  | .debug => "DEBUG"
  | .info => "INFO"
  | .warning => "WARNING"
  | .error => "ERROR"
  | .critical => "CRITICAL"

/-- The names of a level: its own, and a second one that two of the levels have. -/
def names : Level → List String
  | .warning => [name .warning, "WARN"]
  | .critical => [name .critical, "FATAL"]
  | l => [l.name]

/-- The level of a name. What has no level is never told. -/
def ofName? (s : String) : Option Level :=
  [debug, info, warning, error, critical].find? fun l => l.names.contains s

end Level

inductive Channel where
  | entries
  | resolver
  | survey
  | analysis
  | checker
  | platform
  | image
  | logging
  | command
  | named (name : String)
  deriving DecidableEq, Repr, Inhabited

def Channel.text : Channel → String
  | .entries => "aligncheck.domain.services.parsing.die_type_classifier"
  | .resolver => "aligncheck.domain.services.parsing.type_layout_resolver"
  | .survey => "aligncheck.domain.services.parsing.record_extractor"
  | .analysis => "aligncheck.domain.services.analysis.layout_analyzer"
  | .checker => "aligncheck.application.alignment_checker"
  | .platform => "aligncheck.infrastructure.elf_platform"
  | .image => "aligncheck.infrastructure.elf_reader"
  | .logging => "aligncheck.infrastructure.logging.logger_setup"
  | .command => "aligncheck.main"
  | .named name => if name.isEmpty then "root" else name

/-- A stretch of work whose duration is told. -/
structure Span where
  channel : Channel
  label : String
  deriving DecidableEq, Repr, Inhabited

namespace Span

def analysis : Span := ⟨.analysis, "LayoutAnalyzer.analyze_oracle"⟩

def check : Span := ⟨.checker, "AlignmentChecker.check"⟩

def command : Span := ⟨.command, "main"⟩

end Span

/-! ### Events -/

/-- The counts of a survey. -/
structure Progress where
  units : Int := 0
  entries : Int := 0
  records : Int := 0
  skipped : Int := 0
  deriving DecidableEq, Repr, Inhabited

inductive Event where
  | nonNumeric (key : Debug.Key) (offset : Int) (value : Debug.Value)
  | brokenReference (offset : Int) (cause : String)
  | circularReference (offset : Int)
  | depthReached (depth : Nat) (offset : Int)
  | resolved (entry : Debug.Entry) (layout : Layout)
  | unhandledTag (entry : Debug.Entry)
  | unitEntered (number offset : Int)
  | unitFailed (number : Int) (cause : String)
  | unitDone (number records : Int)
  | surveyed (counts : Progress)
  | recordSkipped (label : String) (offset : Int) (reason : Survey.Skip)
  | noLineProgram (offset : Int) (cause : String)
  | cacheUsed (stats : Cache.Stats)
  | shrinkable (record : String) (minimal actual alignment : Int)
  | analysed (checked findings : Nat)
  | checking (path : Path)
  | unknownClass (elfClass : Int)
  | characteristics (machine : Machine) (elfClass : Int) (littleEndian : Bool)
  | target (machine : Machine) (platform : Platform)
  | imageOpened (path : Path)
  | architecture (name : String)
  | debugInfoLoaded
  | logOpened (path : Path) (debug : Bool)
  | filesGiven (paths : List Path)
  | fileChecked (path : Path) (findings : Nat)
  | fatal (cause : String)
  | finished (findings : Nat) (savings : Int)
  | spanStarted (span : Span)
  | spanFailed (span : Span) (cause : String)
  | spanFinished (span : Span)
  | note (channel : Channel) (level : Level) (message : String)
  deriving Inhabited

namespace Event

def channel : Event → Channel
  | .nonNumeric .. | .brokenReference .. => .entries
  | .circularReference .. | .depthReached .. | .resolved .. | .unhandledTag .. => .resolver
  | .unitEntered .. | .unitFailed .. | .unitDone .. | .surveyed .. | .recordSkipped ..
  | .noLineProgram .. | .cacheUsed .. => .survey
  | .shrinkable .. | .analysed .. => .analysis
  | .checking .. => .checker
  | .unknownClass .. | .characteristics .. | .target .. => .platform
  | .imageOpened .. | .architecture .. | .debugInfoLoaded => .image
  | .logOpened .. => .logging
  | .filesGiven .. | .fileChecked .. | .fatal .. | .finished .. => .command
  | .spanStarted span | .spanFailed span _ | .spanFinished span => span.channel
  | .note channel _ _ => channel

def level : Event → Level
  | .circularReference .. | .depthReached .. | .unknownClass .. => .warning
  | .surveyed .. | .analysed .. | .checking .. | .target .. | .fileChecked .. | .finished .. =>
    .info
  | .unitFailed .. | .fatal .. | .spanFailed .. => .error
  | .note _ level _ => level
  | _ => .debug

/-- A duration in seconds with three places. -/
def duration : String := "0.000s"

/-- The duration of a survey, with two places. -/
def roughDuration : String := "0.00s"

def message : Event → String
  | .nonNumeric key offset value =>
    "Non-numeric " ++ key.text ++ " at " ++ Text.hex offset ++ ": " ++ value.literal
  | .brokenReference offset cause =>
    "Could not resolve DW_AT_type from " ++ Text.hex offset ++ ": " ++ cause
  | .circularReference offset => "Circular type reference detected at offset " ++ Text.hex offset
  | .depthReached depth offset =>
    "Max chain depth " ++ Text.decimal depth ++ " reached at offset " ++ Text.hex offset
  | .resolved entry layout =>
    "Resolved " ++ entry.tagText ++ " at " ++ Text.hex entry.offset ++ ": size=" ++
      Text.decimal layout.size ++ ", alignment=" ++ Text.decimal layout.alignment
  | .unhandledTag entry =>
    "Unhandled tag " ++ entry.tagText ++ " at " ++ Text.hex entry.offset ++
      " during layout resolution"
  | .unitEntered number offset => "CU #" ++ Text.decimal number ++ " at " ++ Text.hex offset
  | .unitFailed number cause =>
    "CU #" ++ Text.decimal number ++ " failed after " ++ duration ++ ": " ++ cause
  | .unitDone number records =>
    "CU #" ++ Text.decimal number ++ ": " ++ Text.decimal records ++ " records in " ++ duration
  | .surveyed counts =>
    "Enumerated " ++ Text.decimal counts.records ++ " records (" ++ Text.decimal counts.skipped ++
      " skipped) from " ++ Text.decimal counts.units ++ " CUs, " ++ Text.decimal counts.entries ++
      " DIEs in " ++ roughDuration
  | .recordSkipped label offset reason =>
    "Skipping " ++ label ++ " at " ++ Text.hex offset ++ ": " ++ reason.text
  | .noLineProgram offset cause =>
    "No line program for CU at " ++ Text.hex offset ++ ": " ++ cause
  | .cacheUsed stats => "Type layout cache: " ++ stats.text
  | .shrinkable record minimal actual alignment =>
    "Record " ++ record ++ ": minimal=" ++ Text.decimal minimal ++ ", actual=" ++
      Text.decimal actual ++ ", alignment=" ++ Text.decimal alignment
  | .analysed checked findings =>
    "Checked " ++ Text.decimal checked ++ " records, " ++ Text.decimal findings ++
      " could be smaller"
  | .checking path => "Checking " ++ path.text
  | .unknownClass elfClass =>
    "Unknown ELF class " ++ Text.decimal elfClass ++ ", assuming 64-bit"
  | .characteristics machine elfClass littleEndian =>
    "ELF Characteristics: machine=" ++ machine.text ++ ", class=" ++ Text.decimal elfClass ++
      ", little_endian=" ++ Debug.boolLiteral littleEndian
  | .target machine platform =>
    "Target " ++ machine.text ++ ": word size " ++ Text.decimal platform.wordSize ++
      ", max alignment " ++ Text.decimal platform.maxAlign
  | .imageOpened path => "Opened ELF file: " ++ path.text
  | .architecture name => "Architecture: " ++ name
  | .debugInfoLoaded => "DWARF information loaded successfully"
  | .logOpened path debug =>
    "Writing log to " ++ path.text ++ " (console debug: " ++ Debug.boolLiteral debug ++ ")"
  | .filesGiven paths => "ELF files: " ++ ", ".intercalate (paths.map Path.text)
  | .fileChecked path findings => path.text ++ ": " ++ Text.decimal findings ++ " finding(s)"
  | .fatal cause => "Fatal error: " ++ cause
  | .finished findings savings =>
    Text.decimal findings ++ " finding(s), " ++ Text.decimal savings ++ " byte(s) could be saved"
  | .spanStarted span => span.label ++ " started"
  | .spanFailed span cause => span.label ++ " failed after " ++ duration ++ ": " ++ cause
  | .spanFinished span => span.label ++ " finished in " ++ duration
  | .note _ _ message => message

/-- Whether the numbers in the message are short enough to be written. A count cannot come to be too
long, nor can a field of a header, which has a few bytes. -/
def isWritable : Event → Bool
  | .nonNumeric _ _ value => value.isWritable
  | .cacheUsed stats => Text.isWritable stats.capacity
  | .resolved _ layout => Text.isWritable layout.size && Text.isWritable layout.alignment
  | .recordSkipped _ _ reason => reason.isWritable
  | .shrinkable _ minimal actual alignment => [minimal, actual, alignment].all Text.isWritable
  | .finished _ savings => Text.isWritable savings
  | _ => true

end Event

end PaddingAudit
