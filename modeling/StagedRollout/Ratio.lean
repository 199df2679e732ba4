/-
# Shares as binary floating-point numbers

The share of a group's actions with some status is reported as the double-precision number
nearest to the quotient of two counts, with ties to the even neighbour.
-/

namespace StagedRollout.Ratio

/-- The quotient of two numbers, rounded to the nearest integer and to the even one of two. -/
def roundedDiv (num den : Nat) : Nat :=
  let q := num / den
  let r := num % den
  if 2 * r < den then q else if den < 2 * r then q + 1 else if q % 2 = 0 then q else q + 1

/-- The leading bit of every significand, `2 ^ 52`, which is not written. -/
def hiddenBit : Nat := 4503599627370496

/-- The bits of the double nearest to `part / total`; zero if there is nothing to share.

With `0 < part ≤ total` there is a scale `k` for which the quotient times `2 ^ k` lies in
`[2 ^ 52, 2 ^ 53)`.  Rounded there it is the significand, and `1075 - k` the biased exponent.
A significand that rounds up to `2 ^ 53` carries into the exponent, as it should. -/
def bits (part total : Nat) : Nat :=
  if part = 0 ∨ total = 0 then 0
  else
    let k₀ := 52 + total.log2 - part.log2
    let k := if (part <<< k₀) / total < hiddenBit then k₀ + 1 else k₀
    (1075 - k) * hiddenBit + (roundedDiv (part <<< k) total - hiddenBit)

example : bits 1 5 = 0x3fc999999999999a := by decide +kernel

example : bits 1 1 = 0x3ff0000000000000 := by decide +kernel

example : bits 2 3 = 0x3fe5555555555555 := by decide +kernel

end StagedRollout.Ratio
