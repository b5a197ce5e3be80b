import PaddingAudit.Text.Printable

/-!
# Quoted texts

Messages show a text or a sequence of bytes between quotes, so that blanks and control characters
in it can be seen. The quote is the apostrophe, unless the content has an apostrophe and no double
quote.
-/

namespace PaddingAudit.Text

/-- The quote for a content: the double quote if that saves escaping an apostrophe. -/
def quoteFor (content : List Char) : Char :=
  if content.contains '\'' && !content.contains '"' then '"' else '\''

/-- The last `width` hexadecimal digits of a number. -/
def hexDigits : (width : Nat) → Nat → List Char
  | 0, _ => []
  | width + 1, n => hexDigits width (n / 16) ++ [Nat.digitChar (n % 16)]

/-- A character given by its code point, in the shortest of the three forms that holds it. -/
def numericEscape (c : Char) : List Char :=
  if c.toNat < 0x100 then '\\' :: 'x' :: hexDigits 2 c.toNat
  else if c.toNat < 0x10000 then '\\' :: 'u' :: hexDigits 4 c.toNat
  else '\\' :: 'U' :: hexDigits 8 c.toNat

/-- A character as it stands between quotes: `printable` says which may stand as themselves. -/
def quotedChar (printable : Char → Bool) (quote : Char) (c : Char) : List Char :=
  if c == quote || c == '\\' then ['\\', c]
  else if c == '\t' then ['\\', 't']
  else if c == '\n' then ['\\', 'n']
  else if c == '\r' then ['\\', 'r']
  else if printable c then [c]
  else numericEscape c

def quotedChars (printable : Char → Bool) (content : List Char) : List Char :=
  let quote := quoteFor content
  quote :: content.flatMap (quotedChar printable quote) ++ [quote]

def quoted (s : String) : String :=
  String.ofList (quotedChars isPrintable s.toList)

/-- Bytes between quotes, marked by a `b`; a byte outside printable ASCII is given by its value. -/
def quotedBytes (bytes : List UInt8) : String :=
  let content := bytes.map fun b => Char.ofNat b.toNat
  String.ofList ('b' :: quotedChars (fun c => 0x20 ≤ c.toNat && c.toNat < 0x7F) content)

end PaddingAudit.Text
