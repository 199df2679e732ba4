/-
# Wildcards

A comparison value in which every `*` stands for any characters but a line break.  The whole
of a text has to be covered, case counts, and all other characters stand for themselves.

A value with stars is compiled to an expression: it is split at its stars, the parts stand for
themselves, and what joins them stands for any characters but a line break.  The expression is
anchored at both ends.  It is matched one character of it at a time.  The row that is carried
along tells for every length whether what was read so far can cover that many characters of the
text, so the work is the product of the two lengths whatever the stars do.

An expression may be too large to be compiled.  Where the bound is depends on how the library
that compiles it represents it, so the bound is left open (`Limit`).
-/
import StagedRollout.Text.Blank

namespace StagedRollout.Wildcard

/-- A piece of an expression. -/
inductive Piece where
  /-- These characters. -/
  | exactly (part : List Char)
  /-- Any characters but a line break. -/
  | anything
deriving DecidableEq, Repr

/-- What a value is compiled to. -/
def compile (pattern : List Char) : List Piece :=
  ((Text.splitAll '*' pattern).map .exactly).intersperse .anything

/-- The bound of the library that compiles expressions.  A lone star is within it. -/
class Limit where
  allows : List Piece → Bool
  allows_loneStar : allows (compile ['*']) = true

/-- A bound that allows everything. -/
scoped instance unlimited : Limit := ⟨fun _ => true, rfl⟩

/-- Whether a value can be used in a comparison.  One without stars is not compiled. -/
def isUsable [Limit] (pattern : List Char) : Bool :=
  !pattern.contains '*' || Limit.allows (compile pattern)

/-- The row behind any characters: a length is covered if it was before, or if the length before it
is covered now and the character between is no line break.  `carry` tells the latter. -/
def star (carry : Bool) : List Char → List Bool → List Bool
  | c :: text, b :: row => (b || carry) :: star ((b || carry) && c != '\n') text row
  | _, b :: _ => [b || carry]
  | _, [] => []

/-- The row behind a character that stands for itself: a length is covered if the length before
it was and the character between is this one.  `carry` tells that. -/
def literal (p : Char) (carry : Bool) : List Char → List Bool → List Bool
  | c :: text, b :: row => carry :: literal p (b && c == p) text row
  | _, _ :: _ => [carry]
  | _, [] => []

/-- The row behind a piece. -/
def Piece.row (text : List Char) (row : List Bool) : Piece → List Bool
  | exactly part => part.foldl (fun row p => literal p false text row) row
  | anything => star false text row

/-- The row in front of every expression: nothing is covered yet. -/
def start (text : List Char) : List Bool := true :: List.replicate text.length false

/-- Whether a value with stars covers the whole of a text. -/
def isMatch (pattern text : List Char) : Bool :=
  (((compile pattern).foldl (Piece.row text) (start text)).getLast?).getD false

/-- What an expression means: the text is what its pieces stand for, one behind the other. -/
inductive Covers : List Piece → List Char → Prop
  | nil : Covers [] []
  | exactly {part text : List Char} {pieces : List Piece} (rest : Covers pieces text) :
      Covers (.exactly part :: pieces) (part ++ text)
  | anything {filling text : List Char} {pieces : List Piece} (h : '\n' ∉ filling)
      (rest : Covers pieces text) : Covers (.anything :: pieces) (filling ++ text)

example : compile "gw-*".toList = [.exactly ['g', 'w', '-'], .anything, .exactly []] := by
  decide

example : isMatch "*a*b".toList "xxayyb".toList = true := by decide +kernel

example : isMatch "a*c".toList "a\nc".toList = false := by decide +kernel

end StagedRollout.Wildcard
