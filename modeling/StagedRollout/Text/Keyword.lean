/-
# Keywords

Finite choices that are written as words.  Each choice has one name in lower case with
underscores; people may also write it in upper case, with hyphens and with white space around.
-/
import StagedRollout.Text.Blank

namespace StagedRollout

/-- A type of finitely many choices, each with a name of its own. -/
class Named (α : Type) where
  /-- All choices. -/
  choices : List α
  /-- The name of a choice. -/
  name : α → String
  /-- Every choice is listed. -/
  mem_choices : ∀ a, a ∈ choices
  /-- Different choices have different names. -/
  name_injective : ∀ a b, name a = name b → a = b

namespace Named

variable {α : Type} [Named α]

/-- The choice with a name. -/
def ofName? (s : String) : Option α := choices.find? fun a => name a == s

@[simp] theorem ofName?_name (a : α) : ofName? (name a) = some a := by
  unfold ofName?
  cases h : (choices : List α).find? fun b => name b == name a with
  | none =>
    have := List.find?_eq_none.1 h a (mem_choices a)
    simp at this
  | some b =>
    have := List.find?_some h
    rw [name_injective b a (by simpa using this)]

end Named

namespace Text

/-- A text in ASCII lower case with underscores for hyphens. -/
def snakeCase (s : String) : String :=
  String.ofList (s.toList.map fun c => if c = '-' then '_' else c.toLower)

/-- The choice that a word written by a person names. -/
def keyword? {α : Type} [Named α] (word : String) : Option α :=
  Named.ofName? (snakeCase (trim word))

end Text

end StagedRollout
