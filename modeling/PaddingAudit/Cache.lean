import PaddingAudit.Alignment
import PaddingAudit.Ratio

/-!
# The layout cache

A bounded store of layouts by the offset of their type. When it is full the offset that was not
touched for the longest time goes; a layout is touched when it is stored and when it is found.
-/

namespace PaddingAudit

/-- A store of layouts, the most recently touched one first. -/
structure Cache where
  capacity : Int := 5000
  entries : List (Int × Layout) := []
  hits : Nat := 0
  misses : Nat := 0
  deriving DecidableEq, Repr, Inhabited

structure Cache.Stats where
  entries : Nat
  capacity : Int
  hits : Nat
  misses : Nat
  deriving DecidableEq, Repr, Inhabited

namespace Cache

def find? (c : Cache) (offset : Int) : Option Layout :=
  c.entries.lookup offset

/-- Whether an offset is stored; asking is not a touch. -/
def contains (c : Cache) (offset : Int) : Bool :=
  (c.find? offset).isSome

def others (c : Cache) (offset : Int) : List (Int × Layout) :=
  c.entries.filter fun entry => entry.1 != offset

/-- Looks an offset up, counts the outcome and touches what is found. -/
def get (c : Cache) (offset : Int) : Option Layout × Cache :=
  match c.find? offset with
  | some layout =>
    (some layout, { c with entries := (offset, layout) :: c.others offset, hits := c.hits + 1 })
  | none => (none, { c with misses := c.misses + 1 })

/-- Stores a layout and drops the stalest entries beyond the capacity. -/
def put (c : Cache) (offset : Int) (layout : Layout) : Cache :=
  { c with entries := ((offset, layout) :: c.others offset).take c.capacity.toNat }

@[simp]
theorem capacity_get (c : Cache) (offset : Int) : (c.get offset).2.capacity = c.capacity := by
  unfold get
  split <;> rfl

@[simp]
theorem capacity_put (c : Cache) (offset : Int) (layout : Layout) :
    (c.put offset layout).capacity = c.capacity := rfl

/-- A cache of negative capacity: it can never drop enough entries. -/
def overdrawn (c : Cache) : Bool :=
  decide (c.capacity < 0)

def clear (c : Cache) : Cache :=
  { capacity := c.capacity }

def stats (c : Cache) : Stats where
  entries := c.entries.length
  capacity := c.capacity
  hits := c.hits
  misses := c.misses

/-- The share of lookups that found something, in thousandths. -/
def Stats.hitRatio (s : Stats) : Nat :=
  Ratio.thousandths s.hits (s.hits + s.misses)

def Stats.text (s : Stats) : String :=
  "\x7b'entries': " ++ Text.decimal s.entries ++ ", 'max_size': " ++ Text.decimal s.capacity ++
    ", 'hits': " ++ Text.decimal s.hits ++ ", 'misses': " ++ Text.decimal s.misses ++
    ", 'hit_ratio': " ++ Ratio.text s.hitRatio ++ "\x7d"

end Cache

end PaddingAudit
