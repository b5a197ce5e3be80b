import PaddingAudit.Proofs.JsonReading
import PaddingAudit.Proofs.Query
import PaddingAudit.Report

/-!
# What a report tells

A report as a JSON document tells its findings completely: there is a function that gives them back
in the order of the report. The document is ASCII text, whatever characters the names have. The one
thing that can go wrong is a number too long to be written, and this may be one that is not in the
findings themselves but worked out from them.
-/

namespace PaddingAudit

namespace Json

def member? (key : String) : Json → Option Json
  | .obj members => members.lookup key
  | _ => none

def int? : Json → Option Int
  | .int n => some n
  | _ => none

def str? : Json → Option String
  | .str s => some s
  | _ => none

def items? : Json → Option (List Json)
  | .arr items => some items
  | _ => none

end Json

namespace Report

/-- The data member that an object describes. -/
def field? (value : Json) : Option Field := do
  let name ← (← value.member? "name").str?
  let size ← (← value.member? "size").int?
  let alignment ← (← value.member? "alignment").int?
  return { name := name, size := size, alignment := alignment }

/-- The place that an object tells of. It is unknown where the file is null. -/
def location? (value : Json) : Option (Option Location) := do
  match ← value.member? "file" with
  | .null => return none
  | .str file =>
    let line ← (← value.member? "line").int?
    let column ← (← value.member? "column").int?
    return some { file := file, line := line, column := column }
  | _ => none

/-- The finding that an object describes. The savings follow from the sizes. -/
def finding? (value : Json) : Option Finding := do
  let recordName ← (← value.member? "record").str?
  let unit ← (← value.member? "unit").str?
  let location ← location? value
  let minimalSize ← (← value.member? "minimal_size").int?
  let actualSize ← (← value.member? "actual_size").int?
  let suggestedOrder ← (← (← value.member? "suggested_order").items?).mapM field?
  return { recordName := recordName, unit := unit, location := location,
           minimalSize := minimalSize, actualSize := actualSize,
           suggestedOrder := suggestedOrder }

def decode (text : String) : Option (List Finding) := do
  (← (← Json.parse? text).items?).mapM finding?

theorem mapM_map_of_inverse {α β : Type} {write : α → β} {read : β → Option α}
    (h : ∀ a, read (write a) = some a) (as : List α) : (as.map write).mapM read = some as := by
  induction as with
  | nil => rfl
  | cons a as ih => simp [h, ih]

theorem field?_fieldJson (field : Field) : field? (fieldJson field) = some field := rfl

theorem finding?_findingJson (f : Finding) : finding? (findingJson f) = some f := by
  obtain ⟨recordName, unit, location, minimalSize, actualSize, suggestedOrder⟩ := f
  have horder : (suggestedOrder.map fieldJson).mapM field? = some suggestedOrder :=
    mapM_map_of_inverse field?_fieldJson _
  cases location <;>
    simp [finding?, location?, findingJson, locationJson, Json.member?, Json.str?, Json.int?,
      Json.items?, List.lookup_cons, horder]

theorem decode_render (findings : List Finding) :
    decode (Json.arr (findings.map findingJson)).render = some findings := by
  rw [decode, Json.parse?_render]
  exact mapM_map_of_inverse finding?_findingJson findings

/-! ### Documents -/

theorem sequence_perm (findings : List Finding) (order : SortOrder) :
    (sequence findings order).Perm findings := by
  cases order with
  | location => exact List.mergeSort_perm findings _
  | savings => exact (List.mergeSort_perm _ _).trans (List.mergeSort_perm findings _)

theorem isPlain_of_mem_json {findings : List Finding} {order : SortOrder} {c : Char}
    (h : c ∈ (json findings order).toList) : Json.IsPlain c := by
  rw [json, Json.render, String.toList_ofList] at h
  exact Json.isPlain_chars 0 _ c h

/-- All numbers that findings have are short enough to be written if no one has more digits than
allowed. -/
theorem all_isWritable_iff {numbers : Finding → List Int} {findings : List Finding} :
    (findings.all fun f => (numbers f).all Text.isWritable) = true ↔
      ∀ f ∈ findings, ∀ n ∈ numbers f, n.natAbs < 10 ^ Text.maxDigits := by
  simp only [List.all_eq_true, Text.isWritable, Text.fitsDigits_iff]

/-- A document is written if and only if no number of a finding has more digits than allowed. -/
theorem document_eq (findings : List Finding) (order : SortOrder) :
    document findings order =
      if ∀ f ∈ findings, ∀ n ∈ f.numbers, n.natAbs < 10 ^ Text.maxDigits then
        .ok (json findings order)
      else .error .unwritable := by
  simp only [document, all_isWritable_iff]

/-- There is no document with a finding that saves too much. -/
theorem document_of_long_savings {findings : List Finding} {f : Finding} (hf : f ∈ findings)
    (hlong : 10 ^ Text.maxDigits ≤ f.savings.natAbs) (order : SortOrder) :
    document findings order = .error .unwritable := by
  rw [document_eq, if_neg]
  intro h
  have hshort := h f hf f.savings (by simp [Finding.numbers])
  exact absurd hshort (Nat.not_lt.2 hlong)

/-- A report as a JSON document is complete: decoding it gives back all findings, in the order of
the report. So two reports are the same text if and only if they list the same findings in the same
order. The text has line breaks and printable ASCII characters only. It is written whenever all
numbers in it, the savings among them, are short enough, and otherwise there is no document. -/
theorem decode_json (findings : List Finding) (order : SortOrder) :
    decode (json findings order) = some (sequence findings order) ∧
      (sequence findings order).Perm findings ∧
      (∀ others order', json others order' = json findings order ↔
        sequence others order' = sequence findings order) ∧
      (∀ c ∈ (json findings order).toList, c = '\n' ∨ 0x20 ≤ c.toNat ∧ c.toNat ≤ 0x7E) ∧
      document findings order =
        if ∀ f ∈ findings, ∀ n ∈ f.numbers, n.natAbs < 10 ^ Text.maxDigits then
          .ok (json findings order)
        else .error .unwritable := by
  refine ⟨decode_render _, sequence_perm findings order, fun others order' => ?_,
    fun c => isPlain_of_mem_json, document_eq findings order⟩
  constructor
  · intro h
    have hdecode : some (sequence others order') = some (sequence findings order) := by
      rw [← decode_render, ← decode_render]
      exact congrArg decode h
    exact Option.some.inj hdecode
  · intro h
    rw [json, h, json]

/-! ### A report that cannot be written -/

/-- A finding with sizes below a bound. What it saves is not below it. -/
def vast (bound : Nat) : Finding where
  recordName := "S"
  unit := "u"
  location := none
  minimalSize := -1
  actualSize := bound - 1
  suggestedOrder := []

theorem natAbs_actualSize_vast {bound : Nat} (h : 1 < bound) :
    (vast bound).actualSize.natAbs < bound := by
  show ((bound : Int) - 1).natAbs < bound
  omega

theorem savings_vast (bound : Nat) : (vast bound).savings = bound := by
  show (bound : Int) - 1 - (-1) = bound
  omega

/-- There is no document for a finding whose sizes are just short enough. -/
theorem document_vast :
    (vast (10 ^ Text.maxDigits)).minimalSize.natAbs < 10 ^ Text.maxDigits ∧
      (vast (10 ^ Text.maxDigits)).actualSize.natAbs < 10 ^ Text.maxDigits ∧
      document [vast (10 ^ Text.maxDigits)] .location = .error .unwritable := by
  have hbound : 1 < 10 ^ Text.maxDigits := Nat.one_lt_pow (by decide) (by decide)
  refine ⟨hbound, natAbs_actualSize_vast hbound, ?_⟩
  rw [document_eq, if_neg]
  intro h
  have hlong := h _ List.mem_cons_self (vast (10 ^ Text.maxDigits)).savings
    (by simp only [Finding.numbers, List.cons_append, List.mem_cons, true_or, or_true])
  rw [savings_vast, Int.natAbs_natCast] at hlong
  exact Nat.lt_irrefl _ hlong

end Report

end PaddingAudit
