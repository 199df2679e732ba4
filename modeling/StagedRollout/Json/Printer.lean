/-
# Writing JSON

Three forms: compact, with no white space at all; pretty, with two spaces of indentation for
each level and empty arrays and objects closed at once; and the order of an object's members
either as they stand or sorted by name at every level.  Characters outside ASCII are written
as they are.
-/
import StagedRollout.Json.Basic
import StagedRollout.Ordered.Map

namespace StagedRollout.Json

/-- A hexadecimal digit in lower case. -/
def hexDigit (n : Nat) : Char := Char.ofNat (if n < 10 then 48 + n else 87 + n)

/-- How a character is written inside a string. -/
def escape (c : Char) : List Char :=
  if c = '"' then ['\\', '"']
  else if c = '\\' then ['\\', '\\']
  else if c = '\n' then ['\\', 'n']
  else if c = '\r' then ['\\', 'r']
  else if c = '\t' then ['\\', 't']
  else if c = '\x08' then ['\\', 'b']
  else if c = '\x0c' then ['\\', 'f']
  else if c.toNat < 32 then
    ['\\', 'u', '0', '0', hexDigit (c.toNat / 16), hexDigit (c.toNat % 16)]
  else [c]

/-- A string in quotes. -/
def quote (s : String) : List Char := '"' :: (s.toList.flatMap escape ++ ['"'])

/-- The decimal digits of a number. -/
def digits (n : Nat) : List Char := Nat.toDigits 10 n

/-! ## Compact form -/

mutual

/-- The value without white space. -/
def compactChars : Json → List Char
  | null => ['n', 'u', 'l', 'l']
  | bool true => ['t', 'r', 'u', 'e']
  | bool false => ['f', 'a', 'l', 's', 'e']
  | nat n => digits n
  | numeral text => text.toList
  | str s => quote s
  | arr items => '[' :: (compactItems items ++ [']'])
  | obj members => '\x7b' :: (compactMembers members ++ ['\x7d'])

/-- Items with commas between them. -/
def compactItems : List Json → List Char
  | [] => []
  | [item] => compactChars item
  | item :: next :: rest => compactChars item ++ ',' :: compactItems (next :: rest)

/-- Members with commas between them. -/
def compactMembers : List (String × Json) → List Char
  | [] => []
  | [(name, value)] => quote name ++ ':' :: compactChars value
  | (name, value) :: next :: rest =>
    quote name ++ ':' :: (compactChars value ++ ',' :: compactMembers (next :: rest))

end

/-- The text of a value without white space. -/
def compact (j : Json) : String := String.ofList (compactChars j)

/-! ## Pretty form -/

/-- A line break and the indentation of a level. -/
def newline (level : Nat) : List Char := '\n' :: List.replicate (2 * level) ' '

mutual

/-- The value at a level of indentation. -/
def prettyChars (level : Nat) : Json → List Char
  | arr [] => ['[', ']']
  | arr (item :: rest) =>
    '[' :: (newline (level + 1) ++ prettyChars (level + 1) item ++
      prettyItems (level + 1) rest ++ newline level ++ [']'])
  | obj [] => ['\x7b', '\x7d']
  | obj ((name, value) :: rest) =>
    '\x7b' :: (newline (level + 1) ++ quote name ++ ':' :: ' ' :: prettyChars (level + 1) value ++
      prettyMembers (level + 1) rest ++ newline level ++ ['\x7d'])
  | j => compactChars j

/-- Items after the first, each behind a comma on a line of its own. -/
def prettyItems (level : Nat) : List Json → List Char
  | [] => []
  | item :: rest =>
    ',' :: (newline level ++ prettyChars level item ++ prettyItems level rest)

/-- Members after the first, each behind a comma on a line of its own. -/
def prettyMembers (level : Nat) : List (String × Json) → List Char
  | [] => []
  | (name, value) :: rest =>
    ',' :: (newline level ++ quote name ++ ':' :: ' ' :: prettyChars level value ++
      prettyMembers level rest)

end

/-- The text of a value with two spaces of indentation for each level. -/
def pretty (j : Json) : String := String.ofList (prettyChars 0 j)

/-! ## Members by name -/

mutual

/-- The value with the members of every object by name; the last one of a name counts. -/
def sortNames : Json → Json
  | arr items => arr (sortNamesItems items)
  | obj members => obj (OrderedMap.ofList (sortNamesMembers members)).entries
  | j => j

/-- Sorts inside each item. -/
def sortNamesItems : List Json → List Json
  | [] => []
  | item :: rest => sortNames item :: sortNamesItems rest

/-- Sorts inside each member. -/
def sortNamesMembers : List (String × Json) → List (String × Json)
  | [] => []
  | (name, value) :: rest => (name, sortNames value) :: sortNamesMembers rest

end

example : compact (.obj [("a", .arr [.nat 10, .null]), ("é\n", .obj [])]) =
    "\x7b\"a\":[10,null],\"é\\n\":\x7b\x7d\x7d" := by cbv

end StagedRollout.Json
