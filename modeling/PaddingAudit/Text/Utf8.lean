/-!
# Decoding UTF-8

Every sequence of bytes decodes to a text: each maximal part that begins like a character but
cannot be completed, and each byte that begins no character, becomes one replacement character.
-/

namespace PaddingAudit.Text.Utf8

/-- The character that stands for undecodable bytes. -/
def replacement : Char := '\uFFFD'

/-- Reads `count` continuation bytes, the first of which lies between `low` and `high`, and gives
the character they complete together with the bytes after it. -/
def continued : (count : Nat) → (low high : UInt8) → (code : Nat) → List UInt8 → Char × List UInt8
  | 0, _, _, code, rest => (Char.ofNat code, rest)
  | _ + 1, _, _, _, [] => (replacement, [])
  | count + 1, low, high, code, b :: rest =>
    if low ≤ b && b ≤ high then continued count 0x80 0xBF (code * 64 + b.toNat % 64) rest
    else (replacement, b :: rest)

theorem length_continued_le (count : Nat) (low high : UInt8) (code : Nat) (bytes : List UInt8) :
    (continued count low high code bytes).2.length ≤ bytes.length := by
  induction count generalizing low high code bytes with
  | zero => simp [continued]
  | succ count ih =>
    cases bytes with
    | nil => simp [continued]
    | cons b rest =>
      simp only [continued]
      split
      · exact Nat.le_succ_of_le (ih ..)
      · simp

/-- What a first byte announces: the number of continuation bytes, the bounds on the first of them,
and the leading bits of the code. The bounds exclude overlong forms, surrogates and codes beyond the
last one; a byte that begins no character announces nothing. -/
def lead? (b : UInt8) : Option (Nat × UInt8 × UInt8 × Nat) :=
  if b < 0x80 then some (0, 0x80, 0xBF, b.toNat)
  else if b < 0xC2 then none
  else if b < 0xE0 then some (1, 0x80, 0xBF, b.toNat % 32)
  else if b == 0xE0 then some (2, 0xA0, 0xBF, 0)
  else if b == 0xED then some (2, 0x80, 0x9F, 13)
  else if b < 0xF0 then some (2, 0x80, 0xBF, b.toNat % 16)
  else if b == 0xF0 then some (3, 0x90, 0xBF, 0)
  else if b < 0xF4 then some (3, 0x80, 0xBF, b.toNat % 8)
  else if b == 0xF4 then some (3, 0x80, 0x8F, 4)
  else none

/-- The character that starts with the byte `b`, and the bytes after it. -/
def next (b : UInt8) (rest : List UInt8) : Char × List UInt8 :=
  match lead? b with
  | none => (replacement, rest)
  | some (count, low, high, code) => continued count low high code rest

theorem length_next_le (b : UInt8) (rest : List UInt8) :
    (next b rest).2.length ≤ rest.length := by
  unfold next
  split
  · exact Nat.le_refl _
  · exact length_continued_le ..

def decodeChars : List UInt8 → List Char
  | [] => []
  | b :: rest => (next b rest).1 :: decodeChars (next b rest).2
termination_by bytes => bytes.length
decreasing_by
  exact Nat.lt_succ_of_le (length_next_le b rest)

def decode (bytes : List UInt8) : String :=
  String.ofList (decodeChars bytes)

end PaddingAudit.Text.Utf8
