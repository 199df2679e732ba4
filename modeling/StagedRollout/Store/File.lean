/-
# The store as a file

A store is kept in a text file: a heading, and a line for each row with the name of the table,
the key and the value, if there is one.  An empty file holds an empty store.  Any other text
without the heading is refused; a value that cannot be decoded makes a damaged row and leaves
the others alone.
-/
import StagedRollout.Json.Parser
import StagedRollout.Json.Printer
import StagedRollout.Json.Rows
import StagedRollout.Store.Basic

namespace StagedRollout

/-- What is known of a text that is no value. -/
def Row.undecodable : String := "expected ident at line 1 column 2"

/-- The row that a draft makes. -/
def Row.ofDraft {α : Type} (read : Json.Reader α) (d : Json.Draft) : Row α :=
  match read d with
  | .ok a => .intact a
  | .error _ => .damaged Row.undecodable

namespace Store

/-- Puts a row into a table.  There is no store if no table has the name. -/
def putRow (s : Store) (table key : String) (d : Json.Draft) : Option Store :=
  match table with
  | "rollouts" => some { s with rollouts := s.rollouts.insert key (.ofDraft Rollout.reader d) }
  | "groups" => some { s with groups := s.groups.insert key (.ofDraft RolloutGroup.reader d) }
  | "actions" => some { s with actions := s.actions.insert key (.ofDraft Action.reader d) }
  | "targets" => some { s with targets := s.targets.insert key (.ofDraft Target.reader d) }
  | "filters" => some { s with filters := s.filters.insert key (.ofDraft SavedFilter.reader d) }
  | "leases" => some { s with leases := s.leases.insert key (.ofDraft Lease.reader d) }
  | _ => none

/-- The lines of a table. -/
def tableLines {α : Type} (name : String) (encode : α → Json) (t : Table α) : List String :=
  t.entries.map fun e =>
    let value := match e.2 with
      | .intact a => [encode a]
      | .damaged _ => []
    (Json.arr (.str name :: .str e.1 :: value)).compact

/-- The first line of a file that holds a store. -/
def heading : String := "staged rollout store 1"

/-- The lines of a store. -/
def lines (s : Store) : List String :=
  heading :: (tableLines "rollouts" Rollout.toJson s.rollouts ++
    tableLines "groups" RolloutGroup.toJson s.groups ++
    tableLines "actions" Action.toJson s.actions ++
    tableLines "targets" Target.toJson s.targets ++
    tableLines "filters" SavedFilter.toJson s.filters ++
    tableLines "leases" Lease.toJson s.leases)

/-- Puts the row of a line into a store; the end of the file makes an empty line. -/
def putLine (s : Store) (line : String) : Except StoreError Store :=
  if line.isEmpty then .ok s
  else
    let refusal := StoreError.cannotOpen s!"not a row: {line}"
    match Json.Draft.ofText line with
    | .arr (.str table :: .str key :: value) =>
      match s.putRow table key (value.headD .broken) with
      | some s => .ok s
      | none => .error refusal
    | _ => .error refusal

/-- Puts the rows of lines into a store. -/
def putLines : List String → Store → Except StoreError Store
  | [], s => .ok s
  | line :: rest, s =>
    match s.putLine line with
    | .ok s => putLines rest s
    | .error e => .error e

/-- The store that a file holds. -/
def ofFile (text : String) : Except StoreError Store :=
  match (Text.splitAll '\n' text.toList).map String.ofList with
  | first :: rest =>
    -- an empty text has one line too
    if first = heading then putLines rest .empty
    else if text.isEmpty then .ok .empty
    else .error (.cannotOpen "not a store")
  | [] => .ok .empty

/-- The file that holds a store. -/
def toFile (s : Store) : String := String.join (s.lines.map fun l => l ++ "\n")

end Store

end StagedRollout
