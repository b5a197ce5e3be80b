import PaddingAudit.Failure
import PaddingAudit.Journal

/-!
# Actions

The steps of a run are actions: they work on a state, write a journal, and may fail. A failure loses
neither the state reached so far nor the journal.
-/

namespace PaddingAudit

/-- A state and the journal kept beside it. `limited` says whether the limit on the digits of
decimal text is in force: a runtime has it unless it was lifted. -/
structure Scene (σ : Type) where
  state : σ
  journal : Array Event := #[]
  limited : Bool := true
  deriving Inhabited

/-- A step on a state `σ` that can fail with `ε`. -/
abbrev Action (ε σ : Type) := EStateM ε (Scene σ)

namespace Action

variable {ε σ τ α : Type}

def log (e : Event) : Action ε σ Unit := fun s =>
  .ok () { s with journal := s.journal.push e }

def state : Action ε σ σ := fun s =>
  .ok s.state s

def setState (new : σ) : Action ε σ Unit := fun s =>
  .ok () { s with state := new }

def modifyState (f : σ → σ) : Action ε σ Unit := fun s =>
  .ok () { s with state := f s.state }

def fail (e : ε) : Action ε σ α := fun s =>
  .error e s

/-- Whether a text can be written: any can where the limit on decimal text was lifted. -/
def permits (isWritable : Bool) : Action ε σ Bool := fun s =>
  .ok (isWritable || !s.limited) s

/-- Gives what a text was written for, and fails if the text cannot be written. -/
def write (isWritable : Bool) (a : α) : Action Failure σ α := do
  if ← permits isWritable then return a else fail .unwritable

/-- Writes an event into the journal, and fails if its message cannot be written. -/
def tell (e : Event) : Action Failure σ Unit := do
  if ← permits e.isWritable then log e else fail .unwritable

/-- An action on a part of a state, given by how to read and how to replace the part. -/
def onPart (part : τ → σ) (replace : σ → τ → τ) (x : Action ε σ α) : Action ε τ α := fun s =>
  match x { s with state := part s.state } with
  | .ok a t => .ok a { t with state := replace t.state s.state }
  | .error e t => .error e { t with state := replace t.state s.state }

/-- Writes an event if an action fails, and lets the failure pass. -/
def logFailure (event : ε → Option Event) (x : Action ε σ α) : Action ε σ α := fun s =>
  match x s with
  | .ok a t => .ok a t
  | .error e t =>
    match event e with
    | some ev => .error e { t with journal := t.journal.push ev }
    | none => .error e t

/-- An action that tells when it starts and how it ends. What `cause` gives no text for, such as the
orderly end of a program, passes untold. -/
def timed (span : Span) (cause : ε → Option String) (x : Action ε σ α) : Action ε σ α := do
  log (.spanStarted span)
  let a ← x.logFailure fun e => (cause e).map (Event.spanFailed span)
  log (.spanFinished span)
  return a

/-- The outcome of an action on a state, with what it wrote into the journal. -/
def outcome (x : Action ε σ α) (s : σ) : Except ε α × Scene σ :=
  match x { state := s } with
  | .ok a t => (.ok a, t)
  | .error e t => (.error e, t)

end Action

end PaddingAudit
