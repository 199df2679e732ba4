/-
# Columns of fixed width

Listings are tables of columns.  A column has a width in characters, and a text that is
longer than its column is written whole.
-/

namespace StagedRollout.Text

/-- The text at the left of a column of `width` characters. -/
def padRight (width : Nat) (s : String) : String :=
  s ++ String.ofList (List.replicate (width - s.length) ' ')

/-- The text at the right of a column of `width` characters that is filled with `fill`. -/
def padLeft (fill : Char) (width : Nat) (s : String) : String :=
  String.ofList (List.replicate (width - s.length) fill) ++ s

/-- A number in decimal digits, with zeros in front up to four digits. -/
def fourDigits (n : Nat) : String := padLeft '0' 4 (toString n)

/-- Lines joined by line breaks, without one at the end. -/
def joinLines (lines : List String) : String := String.intercalate "\n" lines

example : fourDigits 7 = "0007" := by decide +kernel

example : fourDigits 12345 = "12345" := by decide +kernel

example : padRight 4 "ab" ++ "|" = "ab  |" := by decide +kernel

end StagedRollout.Text
