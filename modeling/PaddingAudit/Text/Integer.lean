import PaddingAudit.Text.Blank
import PaddingAudit.Text.Digit

/-!
# Integers in text

Reading of integers as people write them in settings, and the two ways integers are written:
in decimal and in hexadecimal.

An integer literal is a sign, if any, and decimal digits of any script with single underscores
between them; white space may surround it. Decimal text has a limit on its digits both ways: a
longer literal stands for nothing, and a longer integer is not written. Hexadecimal text has none.
-/

namespace PaddingAudit.Text

/-- White space that may surround an integer literal: the ASCII separators are not among it. -/
def isMargin (c : Char) : Bool :=
  isBlank c && !(0x1C ≤ c.toNat && c.toNat ≤ 0x1F)

/-- The digits of a literal, most significant first. An underscore needs a digit on both sides,
which `afterDigit` and the recursion look after. -/
def digits? (afterDigit : Bool) : List Char → Option (List Nat)
  | [] => if afterDigit then some [] else none
  | c :: cs =>
    match digitValue? c with
    | some d => (digits? true cs).map (d :: ·)
    | none => if c == '_' && afterDigit then digits? false cs else none

/-- The number a list of decimal digits stands for. -/
def ofDigits (ds : List Nat) : Nat :=
  ds.foldl (fun n d => 10 * n + d) 0

/-- The most digits an integer may have in decimal. -/
def maxDigits : Nat := 4300

/-- The number written by unsigned digits. -/
def natural? (cs : List Char) : Option Nat :=
  match digits? false cs with
  | some ds => if ds.length ≤ maxDigits then some (ofDigits ds) else none
  | none => none

/-- The integer a text stands for, if it is an integer literal. -/
def integer? (s : String) : Option Int :=
  match trimBoth isMargin s.toList with
  | '-' :: cs => (natural? cs).map fun n => -(n : Int)
  | '+' :: cs => (natural? cs).map fun n => (n : Int)
  | cs => (natural? cs).map fun n => (n : Int)

/-- The characters of an integer in decimal. -/
def decimalChars : Int → List Char
  | .ofNat n => Nat.toDigits 10 n
  | .negSucc n => '-' :: Nat.toDigits 10 (n + 1)

def decimal (n : Int) : String :=
  String.ofList (decimalChars n)

/-- Whether a number has at most so many decimal digits. -/
def fitsDigits : (count : Nat) → Nat → Bool
  | 0, n => n == 0
  | count + 1, n => n < 10 || fitsDigits count (n / 10)

/-- Whether an integer is short enough to be written in decimal. -/
def isWritable (n : Int) : Bool :=
  fitsDigits maxDigits n.natAbs

/-- An integer in hexadecimal after the mark `0x`; a minus sign follows the mark. -/
def hex : Int → String
  | .ofNat n => String.ofList ('0' :: 'x' :: Nat.toDigits 16 n)
  | .negSucc n => String.ofList ('0' :: 'x' :: '-' :: Nat.toDigits 16 (n + 1))

end PaddingAudit.Text
