/-
# Numbers beyond the doubles

A double-precision number holds 53 significant bits and stays below `2 ^ 1024`.  A decimal
number is beyond the doubles if rounding it gives no finite one, which is so from the middle
between the largest double and `2 ^ 1024` on.

Two readings of a decimal number are distinguished.  The exact one rounds once (`exceeds`).  The
quick one rounds the digits and the power of ten each and then their product
(`roughlyExceeds`); the two differ only next to the limit.
-/
import StagedRollout.Ratio

namespace StagedRollout.Magnitude

/-- The least number that rounds to no finite double. -/
def limit : Nat := (1 <<< 1024) - (1 <<< 970)

/-- A number rounded to 53 significant bits, to the even one of two neighbours. -/
def rounded (n : Nat) : Nat :=
  let dropped := n.log2 - 52
  Ratio.roundedDiv n (1 <<< dropped) <<< dropped

/-- Whether digits times a power of ten are beyond the doubles.

The bounds in front keep the powers small: a number with a digit is beyond the limit behind 400
zeros, and one with fewer bits than decimals is below one. -/
def exceeds (digits : Nat) : Int → Bool
  | .ofNat zeros => digits != 0 && (400 ≤ zeros || limit ≤ digits * Nat.pow 10 zeros)
  | .negSucc decimals =>
    decimals ≤ digits.log2 && limit * Nat.pow 10 (decimals + 1) ≤ digits

/-- Whether the product of the rounded digits and the rounded power of ten is beyond the
doubles.  Powers from `10 ^ 309` on are so by themselves. -/
def roughlyExceeds (digits : Nat) : Int → Bool
  | .ofNat zeros =>
    digits != 0 && (308 < zeros || limit ≤ rounded digits * rounded (Nat.pow 10 zeros))
  | .negSucc _ => false

example : exceeds 18 307 = true := by decide +kernel

example : exceeds 17976931348623157 292 = false := by decide +kernel

example : exceeds 17976931348623159 292 = true := by decide +kernel

example : roughlyExceeds 1 309 = true := by decide +kernel

end StagedRollout.Magnitude
