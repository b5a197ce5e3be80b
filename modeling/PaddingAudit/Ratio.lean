import PaddingAudit.Text.Integer

/-!
# Ratios in thousandths

A ratio of two counts is first rounded to a binary fraction of 53 significant bits and then to
thousandths; at both steps a tie goes to the even neighbour. It is written with the fewest places
that give it, and at least one.
-/

namespace PaddingAudit

namespace Ratio

/-- A quotient rounded to the nearest number, a half to the even one. -/
def roundDiv (num den : Nat) : Nat :=
  let quotient := num / den
  let twice := 2 * (num % den)
  if twice < den || (twice == den && quotient % 2 == 0) then quotient else quotient + 1

/-- The number of binary places that give a quotient not above one 53 significant bits. -/
def places (num den : Nat) : Nat :=
  let start := 52 + Nat.log2 den - Nat.log2 num
  if num <<< start < den <<< 52 then start + 1 else start

/-- The thousandths of `num / den`; without anything to divide by there are none. -/
def thousandths (num den : Nat) : Nat :=
  if num == 0 || den == 0 then 0
  else
    let shift := places num den
    roundDiv (1000 * roundDiv (num <<< shift) den) (1 <<< shift)

def text (n : Nat) : String :=
  let whole := Text.decimal (n / 1000)
  let tenths := n / 100 % 10
  let hundredths := n / 10 % 10
  let units := n % 10
  let digit (d : Nat) := Text.decimal d
  if units != 0 then whole ++ "." ++ digit tenths ++ digit hundredths ++ digit units
  else if hundredths != 0 then whole ++ "." ++ digit tenths ++ digit hundredths
  else whole ++ "." ++ digit tenths

end Ratio

end PaddingAudit
