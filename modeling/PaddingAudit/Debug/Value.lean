import PaddingAudit.Text.Integer
import PaddingAudit.Text.Quoted
import PaddingAudit.Text.Utf8

/-!
# Attribute values

The values a debugging entry can give its attributes, and the readings of a value: as an integer,
as a flag, as a name. A value is a text in the end, for a name or for the journal, and only an
integer can be too long for one: the lists are expressions and blocks, made of operators, operands
and bytes.
-/

namespace PaddingAudit.Debug

/-- An integer that is short enough to be written. -/
abbrev Numeral := { n : Int // Text.isWritable n }

inductive Item where
  | none
  | bool (b : Bool)
  | int (n : Numeral)
  | text (s : String)
  | bytes (bs : List UInt8)
  | list (items : List Item)
  deriving Inhabited, Repr

/-- The items of a list. No list ends in a truth value. -/
structure Items where
  all : List Item
  last_ne_bool : ∀ b, all.getLast? ≠ some (.bool b)

instance : Inhabited Items where
  default := ⟨[], by simp⟩

instance : Repr Items where
  reprPrec items := reprPrec items.all

inductive Value where
  | none
  | bool (b : Bool)
  | int (n : Int)
  | text (s : String)
  | bytes (bs : List UInt8)
  | list (items : Items)
  deriving Inhabited, Repr

/-- A truth value as it stands in the journal. -/
def boolLiteral : Bool → String
  | true => "True"
  | false => "False"

mutual

def Item.literal : Item → String
  | .none => "None"
  | .bool b => boolLiteral b
  | .int n => Text.decimal n
  | .text s => Text.quoted s
  | .bytes bs => Text.quotedBytes bs
  | .list items => "[" ++ ", ".intercalate (Item.literals items) ++ "]"

def Item.literals : List Item → List String
  | [] => []
  | item :: items => item.literal :: Item.literals items

end

namespace Value

/-- A value as it stands in the journal. -/
def literal : Value → String
  | .none => "None"
  | .bool b => boolLiteral b
  | .int n => Text.decimal n
  | .text s => Text.quoted s
  | .bytes bs => Text.quotedBytes bs
  | .list items => (Item.list items.all).literal

/-- Whether the numbers in the text of a value are short enough to be written. -/
def isWritable : Value → Bool
  | .int n => Text.isWritable n
  | _ => true

/-- The text of a value as a name: a text stands for itself and bytes are UTF-8. -/
def asName : Value → String
  | .text s => s
  | .bytes bs => Text.Utf8.decode bs
  | value => value.literal

/-- A value as an integer. A location expression, such as an offset to be added, is a list that
ends in its operand. -/
def asInt? : Value → Option Int
  | .int n => some n
  | .bool b => some (if b then 1 else 0)
  | .list items =>
    match items.all.getLast? with
    | some (.int n) => some n
    | _ => Option.none
  | _ => Option.none

/-- A value as a flag: whatever is neither zero nor empty sets it. -/
def isSet : Value → Bool
  | .none => false
  | .bool b => b
  | .int n => n != 0
  | .text s => !s.isEmpty
  | .bytes bs => !bs.isEmpty
  | .list items => !items.all.isEmpty

/-- A value that is no integer can be written. -/
theorem isWritable_of_asInt?_eq_none {value : Value} (h : value.asInt? = Option.none) :
    value.isWritable := by
  cases value with
  | int n => simp [asInt?] at h
  | _ => rfl

end Value

/-- A file name or the name of a directory as the table of a line program has it. -/
inductive RawText where
  | text (s : String)
  | bytes (bs : List UInt8)
  deriving DecidableEq, Repr, Inhabited

def RawText.decode : RawText → String
  | .text s => s
  | .bytes bs => Text.Utf8.decode bs

end PaddingAudit.Debug
