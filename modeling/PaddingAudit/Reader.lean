import PaddingAudit.Action
import PaddingAudit.FileTree

/-!
# Reading images

A reader opens the image at a path and loads its debugging information. A reader is either closed or
holds an image with its debugging information; an attempt to open that fails after the file was
found leaves it closed.
-/

namespace PaddingAudit

structure OpenImage where
  image : Image
  info : Debug.Info
  deriving Inhabited

/-- What a reader holds. -/
abbrev Reader := Option OpenImage

namespace Reader

variable {σ : Type}

/-- What a file that is no image is refused with. -/
def noImage : String := "Magic number does not match"

def imageIn : FileContent → Except String Image
  | .text _ => .error noImage
  | .brokenImage message => .error message
  | .image image => .ok image

def fileAt (files : FileTree) (p : Path) : Except Failure FileContent :=
  match files.find p with
  | .error e => .error (.storage e)
  | .ok none => .error (.image (.missing p))
  | .ok (some .directory) => .error (.image (.notAFile p))
  | .ok (some (.file content)) => .ok content

/-- Closes a reader and fails. -/
def refuse {α : Type} (e : ImageError) : Action Failure Reader α := do
  Action.setState none
  Action.fail (.image e)

def openAt (files : FileTree) (p : Path) : Action Failure Reader OpenImage := do
  match fileAt files p with
  | .error e => Action.fail e
  | .ok content =>
    match imageIn content with
    | .error cause => refuse (.unreadable p cause)
    | .ok image =>
      Action.log (.imageOpened p)
      Action.log (.architecture image.architecture)
      match image.debug with
      | .absent => refuse (.noDebugInfo p)
      | .broken cause => refuse (.brokenDebugInfo p cause)
      | .present info =>
        let opened : OpenImage := { image := image, info := info }
        Action.setState (some opened)
        Action.log .debugInfoLoaded
        return opened

def close : Action Failure Reader Unit :=
  Action.setState none

/-- Does some work with the image at a path and closes the reader in the end, whether the work
succeeds or not. -/
def within {α : Type} (files : FileTree) (p : Path) (work : OpenImage → Action Failure Reader α) :
    Action Failure Reader α := do
  let opened ← openAt files p
  fun s =>
    match work opened s with
    | .ok a t => .ok a { t with state := none }
    | .error e t => .error e { t with state := none }

def detectPlatform (image : Image) : Action Failure σ Platform := do
  if !image.hasKnownClass then
    Action.log (.unknownClass image.elfClass)
  Action.log (.characteristics image.machine image.effectiveClass image.littleEndian)
  Action.log (.target image.machine image.platform)
  return image.platform

end Reader

end PaddingAudit
