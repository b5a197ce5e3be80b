/-!
# What is given for an option

An option may be left out, or be given with a value. It may also be given with the mark that ends
all options where its value should stand; the mark is no value, so that there is a setting and yet
nothing in it.
-/

namespace PaddingAudit

/-- What is given for an option. -/
inductive Given (α : Type) where
  /-- The option is left out. -/
  | absent
  /-- The option is there, and its value is not. -/
  | blank
  | value (a : α)
  deriving DecidableEq, Repr, Inhabited

namespace Given

variable {α : Type}

def value? : Given α → Option α
  | .value a => some a
  | _ => none

/-- A value that may be left out, but is never blank. -/
def ofOption : Option α → Given α
  | some a => .value a
  | none => .absent

/-- What is given first, or else what is given second. -/
def orElse : Given α → Given α → Given α
  | .absent, second => second
  | first, _ => first

/-- The text of a setting with a default. What is blank is written as an empty list. -/
def textOr (default : String) : Given String → String
  | .absent => default
  | .blank => "[]"
  | .value text => text

@[simp]
theorem absent_orElse (g : Given α) : orElse .absent g = g := rfl

@[simp]
theorem value_orElse (a : α) (g : Given α) : orElse (.value a) g = .value a := rfl

end Given

end PaddingAudit
