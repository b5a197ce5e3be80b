import PaddingAudit.Reader
import PaddingAudit.Settings.Environment
import PaddingAudit.Survey.Enumeration

/-!
# Checking an image

A check opens an image, finds out its platform, and surveys its records for those that could be
smaller. Nothing is carried over from one check to the next.
-/

namespace PaddingAudit

structure Check where
  path : Path
  maxAlign : Option Int := none
  names : List String := []
  deriving DecidableEq, Repr, Inhabited

namespace Check

/-- What a check needs to have opened: the debugging information and the platform. -/
structure Opened where
  info : Debug.Info
  platform : Platform
  deriving Inhabited

/-- Finds out the platform of an image; the cap of the check, if any, replaces that of the
platform. -/
def prepare {σ : Type} (c : Check) (image : OpenImage) : Action Failure σ Opened := do
  let platform ← Reader.detectPlatform image.image
  return { info := image.info, platform := platform.withMaxAlign c.maxAlign }

def survey {σ : Type} (c : Check) (opened : Opened) (tuning : Tuning) :
    Action Failure σ (List Finding) :=
  let sv := Survey.ofInfo opened.info opened.platform c.names tuning
  sv.findings.onPart (fun _ => Survey.State.fresh tuning) fun _ s => s

def findings {σ : Type} (c : Check) (env : Environment) (opened : Option Opened) :
    Action Failure σ (List Finding) :=
  Action.timed .check (fun e => some e.message) do
    match opened with
    | none => Action.fail .notOpened
    | some opened =>
      Action.log (.checking c.path)
      match Tuning.ofEnvironment env with
      | .error e => Action.fail (.settings e)
      | .ok tuning => c.survey opened tuning

def within {α : Type} (c : Check) (files : FileTree) (work : Opened → Action Failure Reader α) :
    Action Failure Reader α :=
  Reader.within files c.path fun image => do
    work (← c.prepare image)

def run (c : Check) (files : FileTree) (env : Environment) :
    Action Failure Reader (List Finding) :=
  c.within files fun opened => c.findings env (some opened)

end Check

end PaddingAudit
