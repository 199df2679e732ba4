/-
# Tables

A table keeps rows under keys in key order.  A row holds a value, or it is damaged and holds
nothing that can be decoded.  Keys of rows that belong to a parent begin with the parent's key
and a colon, so they are found by their start.
-/
import StagedRollout.Ordered.Map
import StagedRollout.Store.Error

namespace StagedRollout

/-- What is stored under a key. -/
inductive Row (α : Type) where
  | intact (value : α)
  /-- Bytes that are no value, and why. -/
  | damaged (reason : String)
deriving DecidableEq, Repr

/-- The value of a row. -/
def Row.value {α : Type} : Row α → Except StoreError α
  | .intact a => .ok a
  | .damaged reason => .error (.damagedRow reason)

/-- Rows under keys, in key order. -/
abbrev Table (α : Type) := OrderedMap (Row α)

namespace Table

variable {α : Type}

/-- The value under a key. -/
def read (t : Table α) (key : String) : Except StoreError (Option α) :=
  match t.find? key with
  | none => .ok none
  | some row => row.value.map some

/-- Whether there is a row under a key. -/
def has (t : Table α) (key : String) : Bool := (t.find? key).isSome

/-- The table with a value under a key. -/
def put (t : Table α) (key : String) (a : α) : Table α := t.insert key (.intact a)

/-- The values of rows, if all of them are intact. -/
def decode : List (String × Row α) → Except StoreError (List α)
  | [] => .ok []
  | (_, row) :: rest =>
    match row.value with
    | .error e => .error e
    | .ok a =>
      match decode rest with
      | .error e => .error e
      | .ok as => .ok (a :: as)

/-- The values whose keys begin with `start`, in key order. -/
def list (t : Table α) (start : String) : Except StoreError (List α) := decode (t.scan start)

/-- The values that can be decoded, by their keys. -/
def intact? (t : Table α) (key : String) : Option α :=
  match t.find? key with
  | some (.intact a) => some a
  | _ => none

@[simp] theorem intact?_put (t : Table α) (key k : String) (a : α) :
    intact? (put t key a) k = if k = key then some a else intact? t k := by
  unfold intact? put
  rw [OrderedMap.find?_insert]
  by_cases h : k = key <;> simp [h]

@[simp] theorem has_put (t : Table α) (key k : String) (a : α) :
    has (put t key a) k = (decide (k = key) || has t k) := by
  unfold has put
  rw [OrderedMap.find?_insert]
  by_cases h : k = key <;> simp [h]

end Table

end StagedRollout
