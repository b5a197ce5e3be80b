/-!
# White space

The characters that count as white space in Unicode, and the removal of white space
from both ends of a text.
-/

namespace PaddingAudit.Text

/-- White space as Unicode has it, together with the four ASCII separators. -/
def isBlank (c : Char) : Bool :=
  let n := c.toNat
  (0x09 ≤ n && n ≤ 0x0D) || (0x1C ≤ n && n ≤ 0x20) || n == 0x85 || n == 0xA0 || n == 0x1680 ||
    (0x2000 ≤ n && n ≤ 0x200A) || n == 0x2028 || n == 0x2029 || n == 0x202F || n == 0x205F ||
    n == 0x3000

/-- The list without its longest initial and its longest final run of elements satisfying `p`. -/
def trimBoth {α : Type} (p : α → Bool) (xs : List α) : List α :=
  ((xs.dropWhile p).reverse.dropWhile p).reverse

/-- A text without the white space at its two ends. -/
def strip (s : String) : String :=
  String.ofList (trimBoth isBlank s.toList)

/-- A text is blank when nothing is left of it after stripping. -/
def isBlankText (s : String) : Bool :=
  s.toList.all isBlank

/-- The maximal stretches of a list between the occurrences of `sep`, in order. -/
def splitList {α : Type} [BEq α] (sep : α) : List α → List (List α)
  | [] => [[]]
  | x :: xs =>
    if x == sep then [] :: splitList sep xs
    else
      match splitList sep xs with
      | [] => [[x]]
      | part :: parts => (x :: part) :: parts

/-- The parts of a text between the occurrences of `sep`; a text without `sep` is one part. -/
def splitAt (sep : Char) (s : String) : List String :=
  (splitList sep s.toList).map String.ofList

/-- The non-blank items of a comma-separated list, each without surrounding white space. -/
def commaList (s : String) : List String :=
  ((splitAt ',' s).map strip).filter fun part => !part.isEmpty

/-- Whether a text has a null character, which no name and no value of the system can have. -/
def hasNull (s : String) : Bool :=
  s.toList.contains '\x00'

/-- A text with its ASCII letters in lower case. It serves to compare with words of ASCII letters
other than `k`, for which no character outside ASCII has a lower case in the word. -/
def lowerAscii (s : String) : String :=
  String.ofList (s.toList.map Char.toLower)

/-- A text with its ASCII letters in lower case, and the long s as an `s`. It serves to compare
words of ASCII letters other than `k` without regard to case in the widest sense. -/
def foldAscii (s : String) : String :=
  String.ofList (s.toList.map fun c => if c == '\u017F' then 's' else c.toLower)

end PaddingAudit.Text
