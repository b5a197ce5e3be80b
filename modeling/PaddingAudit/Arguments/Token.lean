import PaddingAudit.Arguments.Option

/-!
# Words of the command line

Each word is a value, an option, possibly with a value attached to it, or the mark after which all
words are values. A long option may be shortened as long as only one option begins like it.
-/

namespace PaddingAudit.Arguments

/-- A word by the part it plays. -/
inductive Token where
  /-- Stands for itself. -/
  | value (word : String)
  /-- The first of the words `--`. -/
  | mark
  /-- An option as it is spelled in full, and what is attached to it. -/
  | option (switch : Switch) (spelling : String) (attached : Option String)
  /-- Looks like an option and is none. -/
  | unknown (word : String)
  deriving DecidableEq, Repr, Inhabited

namespace Token

def switch? (spelling : String) : Option Switch :=
  spellings.lookup spelling

/-- A word cut at its first equals sign. -/
def cutAtEquals (word : String) : String × Option String :=
  let name := word.toList.takeWhile (· != '=')
  match word.toList.drop name.length with
  | [] => (word, none)
  | _ :: rest => (String.ofList name, some (String.ofList rest))

/-- The long options that begin like a word, up to an equals sign in it. -/
def longMatches (word : String) : List Token :=
  let (name, attached) := cutAtEquals word
  (spellings.filter fun entry => entry.1.startsWith name).map fun entry =>
    .option entry.2 entry.1 attached

/-- The short option that a word begins with; the rest of the word is attached to it. -/
def shortMatches (word : String) : List Token :=
  let name := String.ofList (word.toList.take 2)
  let rest := String.ofList (word.toList.drop 2)
  spellings.filterMap fun entry =>
    if entry.1 == name then some (.option entry.2 entry.1 (some rest))
    else if entry.1.startsWith word then some (.option entry.2 entry.1 none)
    else none

/-- The options that an incomplete spelling can stand for. -/
def candidates (word : String) : List Token :=
  match word.toList with
  | '-' :: '-' :: _ => longMatches word
  | _ => shortMatches word

/-- Decimal digits, at least one. -/
def isDigits (cs : List Char) : Bool :=
  !cs.isEmpty && cs.all Text.isDecimal

/-- The digits, if any, of a number before its point, a point, and digits. -/
def isFraction (cs : List Char) : Bool :=
  match cs.dropWhile Text.isDecimal with
  | '.' :: places => isDigits places
  | _ => false

/-- A negative number: it is a value although it starts with a hyphen. -/
def isNegativeNumber (word : String) : Bool :=
  match word.toList with
  | '-' :: cs =>
    let digits := if cs.getLast? == some '\n' then cs.dropLast else cs
    isDigits digits || isFraction digits
  | _ => false

/-- The spelling of an option in full. -/
def spelling? : Token → Option String
  | .option _ spelling _ => some spelling
  | _ => none

/-- The part that a word plays before the mark. -/
def ofWord (word : String) : Except Problem Token :=
  if !word.startsWith "-" || word == "-" then .ok (.value word)
  else
    match switch? word with
    | some switch => .ok (.option switch word none)
    | none =>
      match switch? (cutAtEquals word).1, (cutAtEquals word).2 with
      | some switch, some attached => .ok (.option switch (cutAtEquals word).1 (some attached))
      | _, _ =>
        match candidates word with
        | [token] => .ok token
        | [] =>
          if isNegativeNumber word || word.contains ' ' then .ok (.value word)
          else .ok (.unknown word)
        | several => .error (.ambiguous word (several.filterMap spelling?))

def ofWords : List String → Except Problem (List Token)
  | [] => .ok []
  | word :: words =>
    if word == "--" then .ok (.mark :: words.map .value)
    else do
      let token ← ofWord word
      let tokens ← ofWords words
      return token :: tokens

def operand? : Token → Option String
  | .value word => some word
  | .mark => some "--"
  | _ => none

end Token

end PaddingAudit.Arguments
