import PaddingAudit.Text.Blank

/-!
# Paths

Paths in normal form: empty and `.` components are gone, `..` stays, and of the slashes a path
starts with it is only kept whether there are none, exactly two, or any other number.
-/

namespace PaddingAudit

inductive Path.Anchor where
  | relative
  | root
  | doubleRoot
  deriving DecidableEq, Repr, Inhabited

/-- A path in normal form. -/
structure Path where
  anchor : Path.Anchor := .relative
  parts : List String := []
  deriving DecidableEq, Repr, Inhabited

namespace Path

/-- The text with which a path of an anchor starts. -/
def Anchor.text : Anchor → String
  | .relative => ""
  | .root => "/"
  | .doubleRoot => "//"

/-- Two leading slashes are an anchor of their own; three are one again. -/
def Anchor.ofChars : List Char → Anchor
  | '/' :: '/' :: '/' :: _ => .root
  | '/' :: '/' :: _ => .doubleRoot
  | '/' :: _ => .root
  | _ => .relative

def ofString (s : String) : Path where
  anchor := .ofChars s.toList
  parts := (Text.splitAt '/' s).filter fun part => !(part == "" || part == ".")

/-- A path as text; the path with no parts is `.`. -/
def text (p : Path) : String :=
  match p.anchor, p.parts with
  | .relative, [] => "."
  | anchor, parts => anchor.text ++ "/".intercalate parts

def hasNull (p : Path) : Bool :=
  p.parts.any Text.hasNull

/-- The path `q` seen from `p`: an anchored `q` stands for itself. -/
def join (p q : Path) : Path :=
  match q.anchor with
  | .relative => { p with parts := p.parts ++ q.parts }
  | _ => q

end Path

end PaddingAudit
