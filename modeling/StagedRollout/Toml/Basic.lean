/-
# TOML values

A configuration file is a TOML document.  The settings are texts, whole numbers and truth
values in tables; floating-point numbers and dates are known as such and keep their spelling,
because no setting takes one.
-/

namespace StagedRollout

/-- A TOML value. -/
inductive Toml where
  | str (s : String)
  | int (n : Int)
  | bool (b : Bool)
  | float (text : String)
  | date (text : String)
  | arr (items : List Toml)
  | table (entries : List (String × Toml))
deriving Repr, Inhabited, BEq

namespace Toml

/-- The first value that a key has. -/
def find? (key : String) (entries : List (String × Toml)) : Option Toml :=
  (entries.find? fun e => e.1 == key).map (·.2)

/-- How deep values may be nested and how long dotted keys may be, plus one. -/
def depthLimit : Nat := 80

end Toml

end StagedRollout
