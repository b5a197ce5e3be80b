import PaddingAudit.Record

/-!
# Diagnosis of a record

The minimal size of a record is the sum of its member sizes, rounded up once to its alignment. A
record that is larger has avoidable padding, and gets a finding; one that is said to be smaller, or
to have negative sizes, breaks the contract between a source of records and its reader.
-/

namespace PaddingAudit

def Record.effectiveAlignment (r : Record) (cap : Int) : Int :=
  PaddingAudit.effectiveAlignment r.alignment cap

/-- The least size that any order of the members could reach. -/
def Record.minimalSize (r : Record) (cap : Int) : Int :=
  roundUp (total (r.fields.map Field.size)) (r.effectiveAlignment cap)

/-- Larger members come first, and members of one size by name. -/
def Field.precedes (a b : Field) : Bool :=
  decide (b.size < a.size) || (a.size == b.size && decide (a.name ≤ b.name))

/-- The members in the recommended order; equal ones stay as declared. -/
def suggestedOrder (fields : List Field) : List Field :=
  fields.mergeSort Field.precedes

/-- Sizes that no layout can have. -/
inductive ContractError where
  | negativeRecord (name : String) (size : Int)
  | negativeField (record field : String) (size : Int)
  | belowMinimal (record : String) (actual minimal alignment : Int)
  deriving DecidableEq, Repr, Inhabited

def ContractError.message : ContractError → String
  | .negativeRecord name size =>
    "Record " ++ name ++ " has negative actual size " ++ Text.decimal size
  | .negativeField record field size =>
    "Field " ++ record ++ "." ++ field ++ " has negative size " ++ Text.decimal size
  | .belowMinimal record actual minimal alignment =>
    "Record " ++ record ++ " reports size " ++ Text.decimal actual ++
      ", below the minimal size " ++ Text.decimal minimal ++
      " (alignment " ++ Text.decimal alignment ++ ")"

/-- Whether the numbers in the message are short enough to be written. -/
def ContractError.isWritable : ContractError → Bool
  | .negativeRecord _ size | .negativeField _ _ size => Text.isWritable size
  | .belowMinimal _ actual minimal alignment =>
    [actual, minimal, alignment].all Text.isWritable

/-- The first negative size of a record: its own, then those of its members in order. -/
def Record.negativeSize? (r : Record) : Option ContractError :=
  if r.actualSize < 0 then some (.negativeRecord r.name r.actualSize)
  else
    (r.fields.find? fun field => decide (field.size < 0)).map fun field =>
      .negativeField r.name field.name field.size

/-- The finding for a record whose minimal size differs from its actual size. -/
def Record.finding (r : Record) (cap : Int) : Finding where
  recordName := r.name
  unit := r.unit
  location := r.location
  minimalSize := r.minimalSize cap
  actualSize := r.actualSize
  suggestedOrder := suggestedOrder r.fields

/-- What is to be said about a record: nothing if it is as small as it can be. -/
def diagnose (r : Record) (cap : Int) : Except ContractError (Option Finding) :=
  match r.negativeSize? with
  | some e => .error e
  | none =>
    if r.minimalSize cap = r.actualSize then .ok none
    else if r.actualSize < r.minimalSize cap then
      .error (.belowMinimal r.name r.actualSize (r.minimalSize cap) (r.effectiveAlignment cap))
    else .ok (some (r.finding cap))

end PaddingAudit
