/-
# Drafts of JSON values

What a text that should be JSON holds, whether or not it is a value.  A draft keeps the members
of an object with repeated names, because a record with a repeated field is refused, and it has
two kinds of parts that no value has.  From a broken part on the text is no JSON.  An unreadable
part is well formed but stands for nothing: a string with half of a surrogate pair, a number
beyond the doubles, or arrays and objects that are nested too deep.  Such a part does no harm
where it is skipped.

A value is a draft (`Draft.ofJson`), and a draft that is readable throughout is a value
(`Draft.toJson?`).
-/
import StagedRollout.Json.Basic

namespace StagedRollout.Json

/-- What a text holds. -/
inductive Draft where
  | null
  | bool (b : Bool)
  | nat (n : Nat)
  | numeral (text : String)
  | str (s : String)
  | arr (items : List Draft)
  /-- Members as they are written.  The name of a member is a draft as well: one that is no
  string is the last of a broken object. -/
  | obj (members : List (Draft × Draft))
  | unreadable
  | broken
deriving Repr, Inhabited, BEq

namespace Draft

/-! ## Values as drafts -/

mutual

/-- The draft of a value. -/
def ofJson : Json → Draft
  | .null => null
  | .bool b => bool b
  | .nat n => nat n
  | .numeral text => numeral text
  | .str s => str s
  | .arr items => arr (ofItems items)
  | .obj members => obj (ofMembers members)

/-- The drafts of values. -/
def ofItems : List Json → List Draft
  | [] => []
  | item :: rest => ofJson item :: ofItems rest

/-- The drafts of members. -/
def ofMembers : List (String × Json) → List (Draft × Draft)
  | [] => []
  | (name, value) :: rest => (str name, ofJson value) :: ofMembers rest

end

theorem ofItems_eq_map (items : List Json) : ofItems items = items.map ofJson := by
  induction items with
  | nil => rfl
  | cons item rest ih => simp [ofItems, ih]

/-! ## Drafts as values -/

/-- The text of a string. -/
def text? : Draft → Option String
  | str s => some s
  | _ => none

mutual

/-- The value that a draft is, if all of it is readable. -/
def toJson? : Draft → Option Json
  | null => some .null
  | bool b => some (.bool b)
  | nat n => some (.nat n)
  | numeral text => some (.numeral text)
  | str s => some (.str s)
  | arr items => (toItems? items).map .arr
  | obj members => (toMembers? members).map .obj
  | unreadable => none
  | broken => none

/-- The values that drafts are. -/
def toItems? : List Draft → Option (List Json)
  | [] => some []
  | item :: rest => do return (← toJson? item) :: (← toItems? rest)

/-- The members that drafts are. -/
def toMembers? : List (Draft × Draft) → Option (List (String × Json))
  | [] => some []
  | (name, value) :: rest => do
    return (← name.text?, ← toJson? value) :: (← toMembers? rest)

end

mutual

theorem toJson?_ofJson : (j : Json) → toJson? (ofJson j) = some j
  | .null | .bool _ | .nat _ | .numeral _ | .str _ => rfl
  | .arr items => by simp [ofJson, toJson?, toItems?_ofItems items]
  | .obj members => by simp [ofJson, toJson?, toMembers?_ofMembers members]

theorem toItems?_ofItems : (items : List Json) → toItems? (ofItems items) = some items
  | [] => rfl
  | item :: rest => by
    simp [ofItems, toItems?, toJson?_ofJson item, toItems?_ofItems rest]

theorem toMembers?_ofMembers :
    (members : List (String × Json)) → toMembers? (ofMembers members) = some members
  | [] => rfl
  | (_, value) :: rest => by
    simp [ofMembers, toMembers?, text?, toJson?_ofJson value, toMembers?_ofMembers rest]

end

/-! ## Parts of drafts -/

/-- Whether a draft is a name that can stand in front of a member, readable or not. -/
def isName : Draft → Bool
  | str _ => true
  | unreadable => true
  | _ => false

mutual

/-- Whether a draft is JSON to its end, readable or not. -/
def isWhole : Draft → Bool
  | broken => false
  | arr items => areWhole items
  | obj members => areWholeMembers members
  | _ => true

/-- Whether drafts are JSON to their ends. -/
def areWhole : List Draft → Bool
  | [] => true
  | item :: rest => isWhole item && areWhole rest

/-- Whether members are JSON to their ends. -/
def areWholeMembers : List (Draft × Draft) → Bool
  | [] => true
  | (name, value) :: rest => isName name && isWhole value && areWholeMembers rest

end

/-- Whether a draft is readable throughout. -/
def isReadable (d : Draft) : Bool := d.toJson?.isSome

theorem isReadable_ofJson (j : Json) : isReadable (ofJson j) = true := by
  simp [isReadable, toJson?_ofJson]

mutual

theorem isWhole_ofJson : (j : Json) → isWhole (ofJson j) = true
  | .null | .bool _ | .nat _ | .numeral _ | .str _ => rfl
  | .arr items => areWhole_ofItems items
  | .obj members => areWhole_ofMembers members

theorem areWhole_ofItems : (items : List Json) → areWhole (ofItems items) = true
  | [] => rfl
  | item :: rest => by simp [ofItems, areWhole, isWhole_ofJson item, areWhole_ofItems rest]

theorem areWhole_ofMembers :
    (members : List (String × Json)) → areWholeMembers (ofMembers members) = true
  | [] => rfl
  | (_, value) :: rest => by
    simp [ofMembers, areWholeMembers, isName, isWhole_ofJson value, areWhole_ofMembers rest]

end

end Draft

end StagedRollout.Json
