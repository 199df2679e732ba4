/-
# JSON values

JSON as a tree.  An object keeps its members in the order in which they are written.  A number
that is a plain sequence of digits is a natural number; every other number keeps its spelling,
because nothing here accepts it.
-/

namespace StagedRollout

/-- A JSON value. -/
inductive Json where
  | null
  | bool (b : Bool)
  /-- A number written in decimal digits alone. -/
  | nat (n : Nat)
  /-- A number with a sign, a fraction or an exponent, as it is written. -/
  | numeral (text : String)
  | str (s : String)
  | arr (items : List Json)
  | obj (members : List (String × Json))
deriving Repr, Inhabited, BEq

namespace Json

/-- A value or `null`. -/
def ofOption {α : Type} (encode : α → Json) : Option α → Json
  | none => .null
  | some a => encode a

/-- A list of encoded values. -/
def ofList {α : Type} (encode : α → Json) (l : List α) : Json := .arr (l.map encode)

end Json

end StagedRollout
