/-
# Target filters

A filter selects devices.  It compares fields of a device with values and joins the comparisons
with "and" and "or".
-/
import StagedRollout.Filter.Wildcard
import StagedRollout.Fleet.Target

namespace StagedRollout

namespace TargetFilter

/-- What of a device is compared. -/
inductive Field where
  | id
  | name
  | tag
  /-- The attribute with a key. -/
  | attribute (key : String)
deriving DecidableEq, Repr

/-- How a field is compared with a value. -/
inductive Comparison where
  | equal
  | different
deriving DecidableEq, Repr

/-- A filter expression. -/
inductive Expr where
  /-- All parts hold. -/
  | all (parts : List Expr)
  /-- Some part holds. -/
  | any (parts : List Expr)
  | compare (field : Field) (op : Comparison) (value : String)
deriving Repr, Inhabited

/-- Whether a text is what a value stands for.  A value with stars is compiled, and any other one
stands for itself. -/
def valueMatches (value text : String) : Bool :=
  if value.toList.contains '*' then Wildcard.isMatch value.toList text.toList else value == text

/-- Whether some text that a device has for a field is what a value stands for. -/
def Field.hits (field : Field) (value : String) (t : Target) : Bool :=
  match field with
  | .id => valueMatches value t.id
  | .name => valueMatches value t.name
  | .tag => t.tags.any (valueMatches value)
  | .attribute key =>
    match t.attributes.find? key with
    | some text => valueMatches value text
    | none => false

/-- Whether a device passes a comparison. -/
def holds (field : Field) (op : Comparison) (value : String) (t : Target) : Bool :=
  match op with
  | .equal => field.hits value t
  | .different => !field.hits value t

mutual

/-- Whether a device passes a filter. -/
def Expr.selects (t : Target) : Expr → Bool
  | .all parts => Expr.allSelect t parts
  | .any parts => Expr.anySelects t parts
  | .compare field op value => holds field op value t

/-- Whether a device passes all filters of a list. -/
def Expr.allSelect (t : Target) : List Expr → Bool
  | [] => true
  | e :: rest => e.selects t && Expr.allSelect t rest

/-- Whether a device passes some filter of a list. -/
def Expr.anySelects (t : Target) : List Expr → Bool
  | [] => false
  | e :: rest => e.selects t || Expr.anySelects t rest

end

@[simp] theorem Expr.allSelect_eq (t : Target) (parts : List Expr) :
    Expr.allSelect t parts = parts.all (Expr.selects t) := by
  induction parts with
  | nil => simp [Expr.allSelect]
  | cons e rest ih => simp [Expr.allSelect, ih]

@[simp] theorem Expr.anySelects_eq (t : Target) (parts : List Expr) :
    Expr.anySelects t parts = parts.any (Expr.selects t) := by
  induction parts with
  | nil => simp [Expr.anySelects]
  | cons e rest ih => simp [Expr.anySelects, ih]

/-- Why a text is no filter.  Positions count characters from zero. -/
inductive Fault where
  | empty
  | unexpectedChar (pos : Nat) (ch : Char)
  | unexpectedToken (pos : Nat) (found : String)
  | unexpectedEnd
  | unterminatedQuote (pos : Nat)
  | unknownField (name : String)
  | invalidPattern (value : String)
deriving DecidableEq, Repr

namespace Fault

/-- What an operator is told. -/
def message : Fault → String
  | empty => "filter expression is empty"
  | unexpectedChar pos ch => s!"unexpected character '{ch}' at position {pos}"
  | unexpectedToken pos found => s!"unexpected '{found}' at position {pos}"
  | unexpectedEnd => "filter expression ends unexpectedly"
  | unterminatedQuote pos => s!"unterminated quoted value starting at position {pos}"
  | unknownField name =>
    s!"unknown field '{name}' (expected id, name, tag or attribute.<key>)"
  | invalidPattern value => s!"invalid wildcard value '{value}'"

end Fault

end TargetFilter

end StagedRollout
