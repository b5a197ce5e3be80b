import PaddingAudit.Text.Integer
import PaddingAudit.Text.Quoted

/-!
# JSON documents

Values of JSON with integers as the only numbers and the members of an object in a fixed order,
and their printed form: two blanks per level, one item per line, ASCII characters only.
-/

namespace PaddingAudit

inductive Json where
  | null
  | int (n : Int)
  | str (s : String)
  | arr (items : List Json)
  | obj (members : List (String × Json))
  deriving Inhabited

namespace Json

/-- The sixteen bits of a code unit as an escape. -/
def escapeUnit (unit : Nat) : List Char :=
  '\\' :: 'u' :: Text.hexDigits 4 unit

/-- A character inside a printed string. What is not printable ASCII is escaped, beyond the first
65536 code points as a pair of surrogates. -/
def escapeChar (c : Char) : List Char :=
  if c == '"' then ['\\', '"']
  else if c == '\\' then ['\\', '\\']
  else if c == '\n' then ['\\', 'n']
  else if c == '\r' then ['\\', 'r']
  else if c == '\t' then ['\\', 't']
  else if c.toNat == 0x08 then ['\\', 'b']
  else if c.toNat == 0x0C then ['\\', 'f']
  else if 0x20 ≤ c.toNat && c.toNat < 0x7F then [c]
  else if c.toNat < 0x10000 then escapeUnit c.toNat
  else
    escapeUnit (0xD800 + (c.toNat - 0x10000) / 0x400) ++
      escapeUnit (0xDC00 + (c.toNat - 0x10000) % 0x400)

def quote (s : String) : List Char :=
  '"' :: s.toList.flatMap escapeChar ++ ['"']

/-- The start of a line at a level. -/
def newline (level : Nat) : List Char :=
  '\n' :: List.replicate (2 * level) ' '

mutual

/-- The printed form of a value that starts on a line of the given level. -/
def chars (level : Nat) : Json → List Char
  | .null => ['n', 'u', 'l', 'l']
  | .int n => Text.decimalChars n
  | .str s => quote s
  | .arr [] => ['[', ']']
  | .arr (item :: items) =>
    '[' :: newline (level + 1) ++ chars (level + 1) item ++ itemChars (level + 1) items ++
      newline level ++ [']']
  | .obj [] => ['\x7b', '\x7d']
  | .obj ((key, value) :: members) =>
    '\x7b' :: newline (level + 1) ++ quote key ++ [':', ' '] ++ chars (level + 1) value ++
      memberChars (level + 1) members ++ newline level ++ ['\x7d']

def itemChars (level : Nat) : List Json → List Char
  | [] => []
  | item :: items => ',' :: newline level ++ chars level item ++ itemChars level items

def memberChars (level : Nat) : List (String × Json) → List Char
  | [] => []
  | (key, value) :: members =>
    ',' :: newline level ++ quote key ++ [':', ' '] ++ chars level value ++
      memberChars level members

end

def render (value : Json) : String :=
  String.ofList (chars 0 value)

end Json

end PaddingAudit
