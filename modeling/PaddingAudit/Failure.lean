import PaddingAudit.Diagnosis
import PaddingAudit.Path
import PaddingAudit.Text.Quoted

/-!
# Failures

The causes for which a run, or a step of one, can fail, and the message for each.
-/

namespace PaddingAudit

inductive ImageError where
  | missing (path : Path)
  | notAFile (path : Path)
  | unreadable (path : Path) (cause : String)
  | noDebugInfo (path : Path)
  | brokenDebugInfo (path : Path) (cause : String)
  deriving DecidableEq, Repr, Inhabited

def ImageError.message : ImageError → String
  | .missing path => "ELF file not found: " ++ path.text
  | .notAFile path => "Not a file: " ++ path.text
  | .unreadable path cause => "Failed to open ELF file " ++ path.text ++ ": " ++ cause
  | .noDebugInfo path => "No DWARF debug information found in " ++ path.text
  | .brokenDebugInfo path cause =>
    "Failed to load DWARF info from " ++ path.text ++ ": " ++ cause

inductive VariableError where
  | nullByte
  | equalsInName
  | noName
  deriving DecidableEq, Repr, Inhabited

def VariableError.message : VariableError → String
  | .nullByte => "embedded null byte"
  | .equalsInName => "illegal environment variable name"
  | .noName => "[Errno 22] Invalid argument"

inductive SettingsError where
  | badVariable (e : VariableError)
  | maxAlignText (text : String)
  | cacheSizeText (text : String)
  | noFiles
  | fileMissing (path : Path)
  | notAFile (path : Path)
  | badMaxAlign (n : Int)
  | unknownSort (name : String)
  | unknownFormat (name : String)
  deriving DecidableEq, Repr, Inhabited

def SettingsError.message : SettingsError → String
  | .badVariable e => e.message
  | .maxAlignText text => "MAX_ALIGN must be an integer, got " ++ Text.quoted text
  | .cacheSizeText text =>
    "ALIGNCHECK_TYPE_CACHE_SIZE must be an integer, got " ++ Text.quoted text
  | .noFiles => "No ELF file given (pass one or set ELF_FILE_PATH)"
  | .fileMissing path => "ELF file not found: " ++ path.text
  | .notAFile path => "Not a file: " ++ path.text
  | .badMaxAlign n =>
    "Maximum alignment must be a positive power of two, got " ++ Text.decimal n
  | .unknownSort name => "Unknown sort order: " ++ name
  | .unknownFormat name => "Unknown output format: " ++ name

/-- Why the file system refuses to look at a path, to make a directory or to open a file. -/
inductive StorageError where
  | missing (path : String)
  | occupied (path : String)
  | notADirectory (path : String)
  | isADirectory (path : String)
  | nameTooLong (path : String)
  | nullByte
  deriving DecidableEq, Repr, Inhabited

def StorageError.message : StorageError → String
  | .missing path => "[Errno 2] No such file or directory: " ++ Text.quoted path
  | .occupied path => "[Errno 17] File exists: " ++ Text.quoted path
  | .notADirectory path => "[Errno 20] Not a directory: " ++ Text.quoted path
  | .isADirectory path => "[Errno 21] Is a directory: " ++ Text.quoted path
  | .nameTooLong path => "[Errno 36] File name too long: " ++ Text.quoted path
  | .nullByte => "embedded null byte"

inductive Failure where
  /-- A record with sizes that no layout can have. -/
  | contract (e : ContractError)
  /-- A cache of negative capacity was given something to store. -/
  | overdrawnCache
  /-- An entry that cannot be read. -/
  | brokenEntry (message : String)
  /-- Something was asked about the entry at an offset where there is none. -/
  | noEntry (offset : Int)
  /-- Something was asked about a compilation unit beyond the last. -/
  | noUnit
  /-- A check was asked for before its image was opened. -/
  | notOpened
  /-- A number is too long to be written. -/
  | unwritable
  /-- The option for the alignment cap was given without a value. -/
  | blankCap
  /-- The option for the log directory was given without a value. -/
  | blankLogDirectory
  | image (e : ImageError)
  | settings (e : SettingsError)
  | storage (e : StorageError)
  deriving DecidableEq, Repr, Inhabited

def Failure.message : Failure → String
  | .contract e => e.message
  | .overdrawnCache => "'dictionary is empty'"
  | .brokenEntry message => message
  | .noEntry offset => Text.decimal offset
  | .noUnit => "list index out of range"
  | .notOpened => "ELF file not opened. Use AlignmentChecker as a context manager."
  | .unwritable =>
    "Exceeds the limit (" ++ Text.decimal Text.maxDigits ++ " digits) for integer string " ++
      "conversion; use sys.set_int_max_str_digits() to increase the limit"
  | .blankCap => "'<' not supported between instances of 'list' and 'int'"
  | .blankLogDirectory => "'list' object has no attribute 'mkdir'"
  | .image e => e.message
  | .settings e => e.message
  | .storage e => e.message

end PaddingAudit
