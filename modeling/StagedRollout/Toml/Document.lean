/-
# TOML documents

A document is a sequence of lines.  A line in brackets opens a table, one in double brackets
adds a table to an array of tables, and a key with a value belongs to the table that was opened
last.  Tables may be extended in parts, but nothing may be defined twice.
-/
import StagedRollout.Toml.Value

namespace StagedRollout.Toml

/-- What a line does. -/
inductive Line where
  /-- Opens a table. -/
  | opening (path : List String)
  /-- Adds a table to an array of tables and opens it. -/
  | adding (path : List String)
  | setting (path : List String) (v : Toml)

/-- How a table came about. -/
inductive Origin where
  /-- A line opened it. -/
  | opened
  /-- A line opened a table inside it. -/
  | implied
  /-- A dotted key made it. -/
  | dotted
deriving DecidableEq, Repr

/-- What a key stands for while a document is read. -/
inductive Node where
  | value (v : Toml)
  | table (origin : Origin) (entries : List (String × Node))
  /-- The tables of an array, the last one first. -/
  | tables (last : List (String × Node)) (earlier : List (List (String × Node)))

namespace Node

/-- Opens the table at a path. -/
def openTable : List String → List (String × Node) → Option (List (String × Node))
  | [], _ => none
  | [key], entries =>
    match getEntry key entries with
    | none => some (setEntry key (.table .opened []) entries)
    | some (.table .implied made) => some (setEntry key (.table .opened made) entries)
    | some _ => none
  | key :: next :: path, entries =>
    match getEntry key entries with
    | none =>
      (openTable (next :: path) []).map fun made => setEntry key (.table .implied made) entries
    | some (.table origin made) =>
      (openTable (next :: path) made).map fun made => setEntry key (.table origin made) entries
    | some (.tables last earlier) =>
      (openTable (next :: path) last).map fun last => setEntry key (.tables last earlier) entries
    | some (.value _) => none

/-- Adds a table to the array at a path. -/
def addTable : List String → List (String × Node) → Option (List (String × Node))
  | [], _ => none
  | [key], entries =>
    match getEntry key entries with
    | none => some (setEntry key (.tables [] []) entries)
    | some (.tables last earlier) => some (setEntry key (.tables [] (last :: earlier)) entries)
    | some _ => none
  | key :: next :: path, entries =>
    match getEntry key entries with
    | none =>
      (addTable (next :: path) []).map fun made => setEntry key (.table .implied made) entries
    | some (.table origin made) =>
      (addTable (next :: path) made).map fun made => setEntry key (.table origin made) entries
    | some (.tables last earlier) =>
      (addTable (next :: path) last).map fun last => setEntry key (.tables last earlier) entries
    | some (.value _) => none

/-- Puts a value under a dotted key, unless the key is taken or a table on the way was opened.
`fits` tells whether values may be put into the table itself. -/
def put (fits : Bool) :
    List String → Toml → List (String × Node) → Option (List (String × Node))
  | [], _, _ => none
  | [key], v, entries =>
    match getEntry key entries with
    | none => if fits then some (setEntry key (.value v) entries) else none
    | some _ => none
  | key :: next :: path, v, entries =>
    match getEntry key entries with
    | none =>
      (put true (next :: path) v []).map fun made => setEntry key (.table .dotted made) entries
    -- a table with a heading of its own is complete
    | some (.table .opened _) => none
    | some (.table origin made) =>
      (put (origin = .dotted) (next :: path) v made).map fun made =>
        setEntry key (.table origin made) entries
    | some (.tables last earlier) =>
      (put false (next :: path) v last).map fun last =>
        setEntry key (.tables last earlier) entries
    | some (.value _) => none

/-- Puts a value under a dotted key of the table at a path. -/
def putAt (path : List String) (v : Toml) :
    List String → List (String × Node) → Option (List (String × Node))
  | [], entries => put true path v entries
  | key :: home, entries =>
    match getEntry key entries with
    | some (.table origin made) =>
      (putAt path v home made).map fun made => setEntry key (.table origin made) entries
    | some (.tables last earlier) =>
      (putAt path v home last).map fun last => setEntry key (.tables last earlier) entries
    | _ => none

mutual

/-- The value that stands for what was read. -/
def toToml : Node → Toml
  | value v => v
  | table _ entries => .table (toTomls entries)
  | tables last earlier => .arr ((Toml.table (toTomls last) :: toTables earlier).reverse)

/-- The values under their keys. -/
def toTomls : List (String × Node) → List (String × Toml)
  | [] => []
  | (key, n) :: rest => (key, n.toToml) :: toTomls rest

/-- The tables of an array. -/
def toTables : List (List (String × Node)) → List Toml
  | [] => []
  | entries :: rest => Toml.table (toTomls entries) :: toTables rest

end

end Node

/-- The table that lines make, given the path of the table that is open. -/
def assemble : List Line → List String → List (String × Node) → Option (List (String × Node))
  | [], _, entries => some entries
  | .opening path :: rest, _, entries => (Node.openTable path entries).bind (assemble rest path)
  | .adding path :: rest, _, entries => (Node.addTable path entries).bind (assemble rest path)
  | .setting path v :: rest, home, entries =>
    (Node.putAt path v home entries).bind (assemble rest home)

/-! ## Reading -/

/-- The end of a line: blanks, a comment and a line break, or nothing more. -/
def lineEnd? (cs : List Char) : Option (List Char) :=
  match skipComment (skipBlank cs) with
  | [] => some []
  | cs => newline? cs

/-- A line that opens a table, behind its first bracket. -/
def header? (cs : List Char) : Option (Line × List Char) :=
  match cs with
  | '[' :: cs => do
    let (path, rest) ← key? cs
    match rest with
    | ']' :: ']' :: rest => return (.adding path, ← lineEnd? rest)
    | _ => none
  | cs => do
    let (path, rest) ← key? cs
    match rest with
    | ']' :: rest => return (.opening path, ← lineEnd? rest)
    | _ => none

/-- A line that says something. -/
def line? (cs : List Char) : Option (Line × List Char) :=
  match cs with
  | '[' :: rest => header? rest
  | cs => do
    let ((path, v), rest) ← pair (value (depthLimit - 1)) cs
    return (.setting path v, ← lineEnd? rest)

/-- The lines that say something.  The fuel bounds their number. -/
def lines? : Nat → List Char → Option (List Line)
  | 0, _ => none
  | fuel + 1, cs =>
    match skipSpace cs with
    | [] => some []
    | cs => do
      let (line, rest) ← line? cs
      return line :: (← lines? fuel rest)

/-- Drops the mark that some editors put in front of a text. -/
def skipMark : List Char → List Char
  | '\uFEFF' :: cs => cs
  | cs => cs

/-- The table that a document is. -/
def parse (s : String) : Option (List (String × Toml)) := do
  let cs := skipMark s.toList
  let entries ← assemble (← lines? (cs.length + 1) cs) [] []
  return Node.toTomls entries

end StagedRollout.Toml
