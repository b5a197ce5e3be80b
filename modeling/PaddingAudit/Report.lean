import PaddingAudit.Failure
import PaddingAudit.Json

/-!
# Reports

Findings as lines of text or as a JSON document. Both list the findings in the same order: by their
plain line, or by savings, largest first, and then by line.
-/

namespace PaddingAudit

/-- What a report is sorted by. -/
inductive SortOrder where
  | location
  | savings
  deriving DecidableEq, Repr, Inhabited

namespace SortOrder

/-- The names under which the orders are chosen. -/
def names : List String := ["location", "savings"]

/-- The order of a name; any name but `savings` means the order by line. -/
def ofName (name : String) : SortOrder :=
  if name == "savings" then .savings else .location

end SortOrder

namespace Finding

def place (f : Finding) : String :=
  match f.location with
  | some l => l.text
  | none => "<unknown>"

def plainLine (f : Finding) : String :=
  f.unit ++ ": " ++ f.place ++ ": struct " ++ f.recordName ++ " could have size " ++
    Text.decimal f.minimalSize ++ " (currently " ++ Text.decimal f.actualSize ++ ")"

def fieldLine (field : Field) : String :=
  "\t\t" ++ field.name ++ " (size " ++ Text.decimal field.size ++ ")"

/-- The diagnostic for a finding; a verbose one goes on with the recommended order. -/
def line (f : Finding) (verbose : Bool) : String :=
  if verbose then
    f.plainLine ++ ":\n\tRecommended alignment:\n" ++
      "\n".intercalate (f.suggestedOrder.map fieldLine)
  else f.plainLine

/-- The numbers that the diagnostic has. -/
def lineNumbers (f : Finding) (verbose : Bool) : List Int :=
  [f.minimalSize, f.actualSize] ++ (f.location.toList.flatMap fun l => [l.line, l.column]) ++
    if verbose then f.suggestedOrder.map Field.size else []

end Finding

namespace Report

def lineOrder (a b : Finding × String) : Bool :=
  decide (a.2 ≤ b.2)

/-- Compares findings paired with their lines by savings, largest first, and then by line. -/
def savingsOrder (a b : Finding × String) : Bool :=
  decide (b.1.savings < a.1.savings) || (a.1.savings == b.1.savings && decide (a.2 ≤ b.2))

def compare : SortOrder → Finding × String → Finding × String → Bool
  | .location => lineOrder
  | .savings => savingsOrder

def lines (findings : List Finding) (verbose : Bool) (order : SortOrder) : List String :=
  ((findings.map fun f => (f, f.line verbose)).mergeSort (compare order)).map Prod.snd

/-- The lines of a report, unless a number in them is too long to be written. -/
def listing (findings : List Finding) (verbose : Bool) (order : SortOrder) :
    Except Failure (List String) :=
  if findings.all fun f => (f.lineNumbers verbose).all Text.isWritable then
    .ok (lines findings verbose order)
  else .error .unwritable

/-! ### JSON -/

/-- The findings in the order of a JSON report: sorted by line, and for the order by savings
sorted once more without disturbing ties. -/
def sequence (findings : List Finding) (order : SortOrder) : List Finding :=
  let byLine := findings.mergeSort fun a b => decide (a.plainLine ≤ b.plainLine)
  match order with
  | .location => byLine
  | .savings => byLine.mergeSort fun a b => decide (b.savings ≤ a.savings)

def fieldJson (field : Field) : Json :=
  .obj [("name", .str field.name), ("size", .int field.size), ("alignment", .int field.alignment)]

/-- The file, line and column of a place, all null where it is unknown. -/
def locationJson : Option Location → List (String × Json)
  | none => [("file", .null), ("line", .null), ("column", .null)]
  | some l => [("file", .str l.file), ("line", .int l.line), ("column", .int l.column)]

def findingJson (f : Finding) : Json :=
  .obj <| [("record", .str f.recordName), ("unit", .str f.unit)] ++ locationJson f.location ++
    [("minimal_size", .int f.minimalSize), ("actual_size", .int f.actualSize),
     ("savings", .int f.savings), ("suggested_order", .arr (f.suggestedOrder.map fieldJson))]

def json (findings : List Finding) (order : SortOrder) : String :=
  (Json.arr ((sequence findings order).map findingJson)).render

/-- A report as a JSON document, unless a number in it is too long to be written. -/
def document (findings : List Finding) (order : SortOrder) : Except Failure String :=
  if findings.all fun f => f.numbers.all Text.isWritable then .ok (json findings order)
  else .error .unwritable

end Report

end PaddingAudit
