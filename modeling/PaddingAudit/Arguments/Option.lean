import PaddingAudit.Report
import PaddingAudit.Settings.Basic
import PaddingAudit.Text.Quoted

/-!
# Options of the command line

The options with their spellings, and what can be wrong with the arguments of a command.
-/

namespace PaddingAudit.Arguments

/-- The options of the command. -/
inductive Switch where
  | help
  | verbose
  | debug
  | maxAlign
  | struct
  | sort
  | format
  | logDir
  deriving DecidableEq, Repr, Inhabited

def spellings : List (String × Switch) :=
  [("-h", .help), ("--help", .help), ("-v", .verbose), ("--verbose", .verbose),
   ("--debug", .debug), ("--max-align", .maxAlign), ("--struct", .struct), ("--sort", .sort),
   ("--format", .format), ("--log-dir", .logDir)]

namespace Switch

def takesValue : Switch → Bool
  | .help | .verbose | .debug => false
  | _ => true

def display (s : Switch) : String :=
  "/".intercalate ((spellings.filter fun entry => entry.2 == s).map Prod.fst)

/-- The values an option can choose between, if only some are allowed. -/
def choices : Switch → List String
  | .sort => SortOrder.names
  | .format => Settings.formats
  | _ => []

end Switch

/-- What is wrong with the arguments of a command. -/
inductive Problem where
  | ambiguous (argument : String) (candidates : List String)
  | needsValue (option : Switch)
  | takesNoValue (option : Switch) (value : String)
  | notAnInteger (option : Switch) (value : String)
  | notAChoice (option : Switch) (value : String)
  | unrecognized (arguments : List String)
  deriving DecidableEq, Repr, Inhabited

def Problem.message : Problem → String
  | .ambiguous argument candidates =>
    "ambiguous option: " ++ argument ++ " could match " ++ ", ".intercalate candidates
  | .needsValue option => "argument " ++ option.display ++ ": expected one argument"
  | .takesNoValue option value =>
    "argument " ++ option.display ++ ": ignored explicit argument " ++ Text.quoted value
  | .notAnInteger option value =>
    "argument " ++ option.display ++ ": invalid int value: " ++ Text.quoted value
  | .notAChoice option value =>
    "argument " ++ option.display ++ ": invalid choice: " ++ Text.quoted value ++
      " (choose from " ++ ", ".intercalate (option.choices.map Text.quoted) ++ ")"
  | .unrecognized arguments => "unrecognized arguments: " ++ " ".intercalate arguments

end PaddingAudit.Arguments
