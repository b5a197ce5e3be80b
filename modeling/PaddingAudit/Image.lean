import PaddingAudit.Alignment
import PaddingAudit.Debug.Info

/-!
# Program images

What the checker needs to know of an executable or object file: the header fields that decide the
platform, and the debugging information.
-/

namespace PaddingAudit

inductive Machine where
  | named (name : String)
  | numbered (number : Int)
  deriving DecidableEq, Repr, Inhabited

def Machine.text : Machine → String
  | .named name => name
  | .numbered number => Text.decimal number

inductive DebugSection where
  | absent
  | broken (message : String)
  | present (info : Debug.Info)
  deriving Inhabited

structure Image where
  elfClass : Int := 64
  machine : Machine := .named "EM_X86_64"
  littleEndian : Bool := true
  architecture : String := "x64"
  debug : DebugSection := .present {}
  deriving Inhabited

namespace Image

/-- Images are of class 32 or 64. -/
def hasKnownClass (image : Image) : Bool :=
  image.elfClass == 32 || image.elfClass == 64

/-- The class of an image, which is 64 if the header has neither. -/
def effectiveClass (image : Image) : Int :=
  if image.hasKnownClass then image.elfClass else 64

/-- The largest alignment of a machine, where it differs from that of its class: inside structures
the 32-bit Intel machine aligns eight-byte numbers to four. -/
def machineMaxAlign? : Machine → Option Int
  | .named "EM_386" => some 4
  | _ => none

/-- The largest fundamental alignment of a class. -/
def classMaxAlign (elfClass : Int) : Int :=
  if elfClass = 32 then 8 else 16

def platform (image : Image) : Platform where
  wordSize := image.effectiveClass / 8
  maxAlign := (machineMaxAlign? image.machine).getD (classMaxAlign image.effectiveClass)

end Image

end PaddingAudit
