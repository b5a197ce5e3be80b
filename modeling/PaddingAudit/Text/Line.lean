import PaddingAudit.Text.Blank

/-!
# Lines of text files

A text file ends its lines with a line feed, a carriage return, or both. All three mean the same: a
text that is read from a file has line feeds only. A byte order mark may open the file, and is no
part of the text.
-/

namespace PaddingAudit.Text

/-- Characters with every line end turned into a line feed. -/
def unifyEnds : List Char → List Char
  | [] => []
  | '\r' :: '\n' :: cs => '\n' :: unifyEnds cs
  | '\r' :: cs => '\n' :: unifyEnds cs
  | c :: cs => c :: unifyEnds cs

/-- A text with every line end turned into a line feed. -/
def withLineFeeds (s : String) : String :=
  String.ofList (unifyEnds s.toList)

def dropByteOrderMark : List Char → List Char
  | '\uFEFF' :: cs => cs
  | cs => cs

def fileLines (s : String) : List String :=
  (splitList '\n' (unifyEnds (dropByteOrderMark s.toList))).map String.ofList

end PaddingAudit.Text
