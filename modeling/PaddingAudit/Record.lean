import PaddingAudit.Alignment
import PaddingAudit.Text.Integer

/-!
# Records and findings

A record is a structure type with its data members in declaration order. A finding says that some
other order of the members would make the record smaller.
-/

namespace PaddingAudit

structure Field where
  name : String
  size : Int
  alignment : Int := 1
  deriving DecidableEq, Repr, Inhabited

structure Location where
  file : String
  line : Int := 0
  column : Int := 0
  deriving DecidableEq, Repr, Inhabited

def Location.text (l : Location) : String :=
  l.file ++ ":" ++ Text.decimal l.line ++ ":" ++ Text.decimal l.column

/-- A record as the compiler laid it out: `actualSize` counts all padding of the declared order. -/
structure Record where
  name : String
  fields : List Field
  actualSize : Int
  alignment : Int
  location : Option Location := none
  unit : String := ""
  deriving DecidableEq, Repr, Inhabited

/-- A record that could be smaller. -/
structure Finding where
  recordName : String
  unit : String
  location : Option Location
  minimalSize : Int
  actualSize : Int
  suggestedOrder : List Field
  deriving DecidableEq, Repr, Inhabited

/-- The bytes between the actual and the minimal size. -/
def Finding.savings (f : Finding) : Int :=
  f.actualSize - f.minimalSize

/-- The numbers that a full account of a finding has. -/
def Finding.numbers (f : Finding) : List Int :=
  [f.minimalSize, f.actualSize, f.savings] ++
    (f.location.toList.flatMap fun l => [l.line, l.column]) ++
    f.suggestedOrder.flatMap fun field => [field.size, field.alignment]

def totalSavings (findings : List Finding) : Int :=
  total (findings.map Finding.savings)

end PaddingAudit
