import PaddingAudit.Text.Integer

/-!
# Skipped records

The reasons for which a record definition is left out of a survey.
-/

namespace PaddingAudit.Survey

/-- Why the order of the members of a record is fixed or unknown. -/
inductive Skip where
  | declaration
  | noSize
  | anonymous
  | baseClasses
  | bitfields
  | noMembers
  | overAligned (alignment cap : Int)
  | overlapping
  deriving DecidableEq, Repr, Inhabited

def Skip.text : Skip → String
  | .declaration => "declaration only"
  | .noSize => "no byte size"
  | .anonymous => "anonymous"
  | .baseClasses => "has base classes"
  | .bitfields => "has bitfields"
  | .noMembers => "no data members"
  | .overAligned alignment cap =>
    "aligned to " ++ Text.decimal alignment ++ ", above maximum " ++ Text.decimal cap
  | .overlapping => "overlapping members"

/-- Whether the numbers in the reason are short enough to be written. -/
def Skip.isWritable : Skip → Bool
  | .overAligned alignment cap => Text.isWritable alignment && Text.isWritable cap
  | _ => true

end PaddingAudit.Survey
