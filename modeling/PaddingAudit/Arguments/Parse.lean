import PaddingAudit.Arguments.Token

/-!
# Arguments of a command

The files to check stand together somewhere on the command line, and options before, between and
after them. Options are taken from left to right, so that of two settings for the same thing the
last one counts, and of two problems the first one. All words are sorted into values and options
before any is taken.
-/

namespace PaddingAudit

/-- The arguments of a command, as far as they are given. -/
structure Arguments where
  files : List Path := []
  verbose : Bool := false
  debug : Bool := false
  maxAlign : Given Int := .absent
  struct : Given String := .absent
  sort : Given String := .absent
  format : Given String := .absent
  logDir : Given Path := .absent
  deriving DecidableEq, Repr, Inhabited

namespace Arguments

/-- Why the arguments of a command are not carried out. -/
inductive Refusal where
  /-- Help was asked for. -/
  | help
  | problem (p : Problem)
  deriving DecidableEq, Repr, Inhabited

def takeFlag (args : Arguments) : Switch → Except Refusal Arguments
  | .help => .error .help
  | .verbose => .ok { args with verbose := true }
  | .debug => .ok { args with debug := true }
  | switch => .error (.problem (.needsValue switch))

/-- A value that has to be one of the choices of an option. -/
def choice (switch : Switch) (value : String) : Except Refusal String :=
  if switch.choices.contains value then .ok value else .error (.problem (.notAChoice switch value))

/-- The integer that the value of an option stands for. -/
def number (switch : Switch) (value : String) : Except Refusal Int :=
  match Text.integer? value with
  | some n => .ok n
  | none => .error (.problem (.notAnInteger switch value))

/-- What a value gives: the mark is none, and anything else is read. -/
def given {α : Type} (read : String → Except Refusal α) (value : String) :
    Except Refusal (Given α) :=
  if value == "--" then .ok .blank else (read value).map .value

def path (value : String) : Except Refusal Path :=
  .ok (Path.ofString value)

def takeValue (args : Arguments) (switch : Switch) (value : String) : Except Refusal Arguments :=
  match switch with
  | .maxAlign => do return { args with maxAlign := ← given (number switch) value }
  | .struct => do return { args with struct := ← given .ok value }
  | .sort => do return { args with sort := ← given (choice switch) value }
  | .format => do return { args with format := ← given (choice switch) value }
  | .logDir => do return { args with logDir := ← given path value }
  | .help | .verbose | .debug => .error (.problem (.takesNoValue switch value))

/-- The short options in the letters attached to the short option `switch`, which is among them. The
letters have to be options without values, but the last of them may take what is left as its
value. -/
def cluster (switch : Switch) : List Char → Except Problem (List (Switch × Option String))
  | [] => .ok [(switch, none)]
  | letter :: letters =>
    if switch.takesValue then .ok [(switch, some (String.ofList (letter :: letters)))]
    else
      match Token.switch? (String.ofList ['-', letter]) with
      | some next => do
        let more ← cluster next letters
        return (switch, none) :: more
      | none => .error (.takesNoValue switch (String.ofList (letter :: letters)))

def takeAll (args : Arguments) : List (Switch × Option String) → Except Refusal Arguments
  | [] => .ok args
  | (switch, none) :: rest => do
    (← args.takeFlag switch).takeAll rest
  | (switch, some value) :: rest => do
    (← args.takeValue switch value).takeAll rest

def isShort (spelling : String) : Bool :=
  !spelling.startsWith "--"

/-- Takes an option with what is attached to it. -/
def takeAttached (args : Arguments) (switch : Switch) (spelling attached : String) :
    Except Refusal Arguments :=
  if switch.takesValue then args.takeValue switch attached
  else if isShort spelling && !attached.isEmpty then
    match cluster switch attached.toList with
    | .ok options => args.takeAll options
    | .error p => .error (.problem p)
  else .error (.problem (.takesNoValue switch attached))

/-- The state of reading: what was taken, whether the files were, and the words left over. -/
structure Reading where
  args : Arguments := {}
  filesTaken : Bool := false
  leftOver : List String := []
  deriving Inhabited

/-- The words without the first mark among them. -/
def dropMark (words : List String) : List String :=
  words.erase "--"

/-- Takes a run of words that are no options: the first run are the files. -/
def Reading.takeRun (r : Reading) (words : List String) : Reading :=
  if words.isEmpty then r
  else if r.filesTaken then { r with leftOver := r.leftOver ++ words }
  else
    let files := (dropMark words).map Path.ofString
    { r with args := { r.args with files := files }, filesTaken := true }

/-- Reads tokens; `run` are the words since the last option that are no options. -/
def read (r : Reading) (run : List String) : List Token → Except Refusal Reading
  | [] => .ok (r.takeRun run)
  | .value word :: tokens => read r (run ++ [word]) tokens
  | .mark :: tokens => read r (run ++ ["--"]) tokens
  | .unknown word :: tokens =>
    let r := r.takeRun run
    read { r with leftOver := r.leftOver ++ [word] } [] tokens
  | .option switch spelling (some attached) :: tokens => do
    let r := r.takeRun run
    let args ← r.args.takeAttached switch spelling attached
    read { r with args := args } [] tokens
  | .option switch _ none :: tokens => do
    let r := r.takeRun run
    if switch.takesValue then
      match tokens with
      | .value word :: rest =>
        let args ← r.args.takeValue switch word
        read { r with args := args } [] rest
      | _ => .error (.problem (.needsValue switch))
    else
      let args ← r.args.takeFlag switch
      read { r with args := args } [] tokens

def parse (words : List String) : Except Refusal Arguments :=
  match Token.ofWords words with
  | .error p => .error (.problem p)
  | .ok tokens => do
    let r ← read {} [] tokens
    if r.leftOver.isEmpty then return r.args
    else .error (.problem (.unrecognized r.leftOver))

def choices (args : Arguments) : Choices where
  files := args.files
  verbose := args.verbose
  debug := args.debug
  maxAlign := args.maxAlign
  names := Text.commaList (args.struct.value?.getD "")
  sortBy := args.sort
  format := args.format
  logDirectory := args.logDir

end Arguments

end PaddingAudit
