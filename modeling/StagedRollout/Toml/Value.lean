/-
# Values in TOML

Arrays may go over several lines and end with a comma.  A table inside braces stands on one
line; dotted keys make tables inside it, and a key may not be given twice.
-/
import StagedRollout.Text.Blank
import StagedRollout.Toml.Number
import StagedRollout.Toml.Text

namespace StagedRollout.Toml

/-- A reader of values: nothing if there is none, else the value and what follows it. -/
abbrev Reader (α : Type) := List Char → Option (α × List Char)

/-- Drops blanks, line breaks and comments.  The fuel bounds the number of lines. -/
def skipLines : Nat → List Char → List Char
  | 0, cs => cs
  | fuel + 1, cs =>
    let cs := skipComment (skipBlank cs)
    match newline? cs with
    | some rest => skipLines fuel rest
    | none => cs

/-- Drops blanks, line breaks and comments. -/
def skipSpace (cs : List Char) : List Char := skipLines (cs.length + 1) cs

/-! ## Tables inside braces -/

/-- What a key of a table inside braces stands for while the table is read. -/
inductive Inner where
  | value (v : Toml)
  /-- A table that dotted keys made, which further dotted keys may extend. -/
  | dotted (entries : List (String × Inner))

/-- Replaces the value of a key, or adds it behind the others. -/
def setEntry {α : Type} (key : String) (a : α) : List (String × α) → List (String × α)
  | [] => [(key, a)]
  | e :: rest => if e.1 = key then (key, a) :: rest else e :: setEntry key a rest

/-- The value of a key. -/
def getEntry {α : Type} (key : String) : List (String × α) → Option α
  | [] => none
  | e :: rest => if e.1 = key then some e.2 else getEntry key rest

namespace Inner

/-- Puts a value under a dotted key, unless the key is taken. -/
def put : List String → Toml → List (String × Inner) → Option (List (String × Inner))
  | [], _, _ => none
  | [key], v, entries =>
    match getEntry key entries with
    | none => some (setEntry key (.value v) entries)
    | some _ => none
  | key :: next :: path, v, entries =>
    match getEntry key entries with
    | none =>
      (put (next :: path) v []).map fun made => setEntry key (.dotted made) entries
    | some (.dotted made) =>
      (put (next :: path) v made).map fun made => setEntry key (.dotted made) entries
    | some (.value _) => none

mutual

/-- The value that stands for what was read. -/
def toToml : Inner → Toml
  | value v => v
  | dotted entries => .table (toTomls entries)

/-- The values under their keys. -/
def toTomls : List (String × Inner) → List (String × Toml)
  | [] => []
  | (key, i) :: rest => (key, i.toToml) :: toTomls rest

end

/-- The table that keys and values make. -/
def table? : List (List String × Toml) → List (String × Inner) → Option Toml
  | [], entries => some (.table (toTomls entries))
  | (path, v) :: rest, entries => (put path v entries).bind (table? rest)

end Inner

/-! ## Values -/

/-- Items of an array up to its closing bracket. -/
def items (item : Reader Toml) : Nat → Reader (List Toml)
  | 0, _ => none
  | fuel + 1, cs =>
    match skipSpace cs with
    | ']' :: rest => some ([], rest)
    | cs => do
      let (v, rest) ← item cs
      match skipSpace rest with
      | ',' :: rest => (items item fuel rest).map fun (vs, rest) => (v :: vs, rest)
      | ']' :: rest => return ([v], rest)
      | _ => none

/-- A key, an equals sign and a value, and the blanks behind it. -/
def pair (item : Reader Toml) : Reader (List String × Toml) := fun cs => do
  let (path, rest) ← key? cs
  match rest with
  | '=' :: rest => (item (skipBlank rest)).map fun (v, rest) => ((path, v), skipBlank rest)
  | _ => none

/-- Keys and values of a table up to its closing brace, at least one. -/
def pairs (item : Reader Toml) : Nat → Reader (List (List String × Toml))
  | 0, _ => none
  | fuel + 1, cs => do
    let (p, rest) ← pair item cs
    match rest with
    | ',' :: rest => (pairs item fuel rest).map fun (ps, rest) => (p :: ps, rest)
    | '\x7d' :: rest => return ([p], rest)
    | _ => none

/-- A value, nested as deep as the fuel allows. -/
def value : Nat → Reader Toml
  | depth, cs =>
    match cs with
    | '[' :: rest =>
      match depth with
      | 0 => none
      | depth + 1 =>
        (items (value depth) (rest.length + 1) rest).map fun (vs, rest) => (.arr vs, rest)
    | '\x7b' :: rest =>
      match depth with
      | 0 => none
      | depth + 1 =>
        match skipBlank rest with
        | '\x7d' :: rest => some (.table [], rest)
        | _ => do
          let (ps, rest) ← pairs (value depth) (rest.length + 1) rest
          return (← Inner.table? ps [], rest)
    | 't' :: 'r' :: 'u' :: 'e' :: rest => some (.bool true, rest)
    | 'f' :: 'a' :: 'l' :: 's' :: 'e' :: rest => some (.bool false, rest)
    | '"' :: _ => (text? cs).map fun (s, rest) => (.str s, rest)
    | '\'' :: _ => (text? cs).map fun (s, rest) => (.str s, rest)
    | _ => number? cs

end StagedRollout.Toml
