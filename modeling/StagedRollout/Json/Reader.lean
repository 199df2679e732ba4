/-
# Reading drafts

A reader turns a draft into a value of some type or says why it does not: because the text is no
JSON, or because it is JSON for something else.  Of several faults the first in the text counts,
so a reader goes through a draft from front to back and stops at once.

Records, choices and tagged values have more than one spelling.

* A record is an object with named fields or an array of the fields in order.  Fields that the
  record does not know are skipped in an object, and a known field that is given twice is
  refused.
* A choice is its name if it holds nothing, and otherwise an object with its name and what it
  holds.  An object with the name and `null` will do for one that holds nothing.
* A tagged value keeps the name of its choice in one member and what the choice holds in another
  one, or in those beside it.

What a tag decides is kept as it is where it stands in front of its tag.  Then it has to be
readable throughout, and whatever is wrong with it otherwise is found only behind the tag.
-/
import StagedRollout.Json.Parser
import StagedRollout.Ordered.Map

namespace StagedRollout.Json

/-- Why a text gives no value. -/
inductive Fault where
  /-- The text is no JSON. -/
  | malformed
  /-- The text is JSON for something else. -/
  | mismatch
deriving DecidableEq, Repr

/-- A way to read drafts. -/
abbrev Reader (α : Type) := Draft → Except Fault α

namespace Reader

variable {α β : Type}

/-- The fault of a draft that is read as something that it is not. -/
def refusal : Draft → Fault
  | .unreadable | .broken => .malformed
  | _ => .mismatch

/-! ## Simple values -/

/-- A text. -/
def text : Reader String
  | .str s => .ok s
  | d => .error (refusal d)

/-- A truth value. -/
def bool : Reader Bool
  | .bool b => .ok b
  | d => .error (refusal d)

/-- A natural number of at most `limit`. -/
def nat (limit : Nat) : Reader Nat
  | .nat n => if n ≤ limit then .ok n else .error .mismatch
  | d => .error (refusal d)

/-- A number of 32 bits. -/
def nat32 : Reader Nat := nat Text.max32

/-- A number of 64 bits. -/
def nat64 : Reader Nat := nat Text.max64

/-- The word for no value. -/
def null : Reader Unit
  | .null => .ok ()
  | d => .error (refusal d)

/-- A value or `null`. -/
def option (read : Reader α) : Reader (Option α)
  | .null => .ok none
  | d => some <$> read d

/-- The items of an array. -/
def list (read : Reader α) : Reader (List α)
  | .arr items => items.mapM read
  | d => .error (refusal d)

/-- Goes on to the next item of an array with a fixed number of them. -/
def next (read : Reader α) : List Draft → Except Fault (α × List Draft)
  | [] => .error .mismatch
  | d :: rest => do return (← read d, rest)

/-- Refuses further parts; that there are any shows before what they are. -/
def finish (a : α) : List β → Except Fault α
  | [] => .ok a
  | _ :: _ => .error .malformed

/-- Two values in an array. -/
def pair (first : Reader α) (second : Reader β) : Reader (α × β)
  | .arr items => do
    let (a, items) ← next first items
    let (b, items) ← next second items
    finish (a, b) items
  | d => .error (refusal d)

/-- The name of a member. -/
def name : Draft → Except Fault String
  | .str s => .ok s
  | _ => .error .malformed

/-- A member whose value is a text. -/
def textMember (m : Draft × Draft) : Except Fault (String × String) := do
  return (← name m.1, ← text m.2)

/-- An object whose values are texts; the last member of a name counts. -/
def textMap : Reader (OrderedMap String)
  | .obj members => OrderedMap.ofList <$> members.mapM textMember
  | d => .error (refusal d)

/-- Passes over a draft. -/
def skip : Reader Unit := fun d => if d.isWhole then .ok () else .error .malformed

/-- Keeps a draft to read it later. -/
def keep : Reader Draft := fun d => if d.isReadable then .ok d else .error .malformed

/-- The result of reading a draft that was kept. -/
def settle (r : Except Fault α) : Except Fault α := r.mapError fun _ => .mismatch

/-- What a table has for a name, if it knows the name. -/
def known : Option α → Except Fault α
  | some a => .ok a
  | none => .error .mismatch

end Reader

/-! ## Records -/

/-- How the fields of a record are read. -/
structure Fields (α : Type) where
  /-- The names of the fields, with a reader each that tells whether a field is right. -/
  checks : List (String × Reader Unit)
  /-- The record from the members of an object, which are right and of which no two have the
  same name. -/
  ofMembers : List (String × Draft) → Except Fault α
  /-- The record from the items of an array, and the items that are left. -/
  ofItems : List Draft → Except Fault (α × List Draft)

namespace Fields

variable {α β : Type}

/-- A record without fields. -/
def constant (a : α) : Fields α := ⟨[], fun _ => .ok a, fun items => .ok (a, items)⟩

/-- The fields of one record and then those of another one. -/
def both (f : Fields (α → β)) (x : Fields α) : Fields β where
  checks := f.checks ++ x.checks
  ofMembers members := do return (← f.ofMembers members) (← x.ofMembers members)
  ofItems items := do
    let (g, items) ← f.ofItems items
    let (a, items) ← x.ofItems items
    return (g a, items)

instance : Applicative Fields where
  pure := constant
  seq f x := both f (x ())

/-- One field, with what stands for it where an object or an array does not have it. -/
def single (name : String) (read : Reader α) (absent ending : Except Fault α) : Fields α where
  checks := [(name, fun d => do let _ ← read d; return ())]
  ofMembers members :=
    match members.lookup name with
    | some d => read d
    | none => absent
  ofItems
    | [] => ending.map fun a => (a, [])
    | d :: rest => do return (← read d, rest)

/-- A field that has to be given. -/
def required (name : String) (read : Reader α) : Fields α :=
  single name read (.error .mismatch) (.error .mismatch)

/-- A field that may be `null`, and whose absence in an object means the same. -/
def nullable (name : String) (read : Reader α) : Fields (Option α) :=
  single name (Reader.option read) (.ok none) (.error .mismatch)

/-- A field whose absence means a default value. -/
def defaulted (name : String) (read : Reader α) (value : α) : Fields α :=
  single name read (.ok value) (.ok value)

/-- The known members of an object, given the names of those in front, if all of them are
right. -/
def sift (checks : List (String × Reader Unit)) :
    List String → List (Draft × Draft) → Except Fault (List (String × Draft))
  | _, [] => .ok []
  | seen, (key, value) :: rest => do
    let name ← Reader.name key
    match checks.lookup name with
    | some check =>
      if seen.contains name then throw .mismatch
      check value
      return (name, value) :: (← sift checks (name :: seen) rest)
    | none =>
      Reader.skip value
      sift checks seen rest

/-- The record from the items of an array, all of them. -/
def ofArray (f : Fields α) (items : List Draft) : Except Fault α := do
  let (a, rest) ← f.ofItems items
  Reader.finish a rest

/-- The record from the members of an object. -/
def ofObject (f : Fields α) (members : List (Draft × Draft)) : Except Fault α := do
  f.ofMembers (← sift f.checks [] members)

/-- A record. -/
def reader (f : Fields α) : Reader α
  | .obj members => f.ofObject members
  | .arr items => f.ofArray items
  | d => .error (Reader.refusal d)

end Fields

/-! ## Choices -/

/-- What a choice holds. -/
inductive Choice (α : Type) where
  | bare (a : α)
  | holding (read : Reader α)

namespace Choice

variable {α β : Type}

/-- A choice that holds what a reader reads. -/
def of (make : α → β) (read : Reader α) : Option (Choice β) :=
  some (holding fun d => make <$> read d)

/-- Reads what a choice holds, and what stands for nothing. -/
def content (nothing : Reader Unit) : Choice α → Reader α
  | bare a => fun d => do
    nothing d
    return a
  | holding read => read

/-- Whether a draft stands for nothing.  In a draft that was kept an empty object does so, too. -/
def nothing (kept : Bool) : Reader Unit
  | .obj [] => if kept then .ok () else .error .mismatch
  | d => Reader.null d

/-- The name of a choice in the place of a member's name. -/
def key : Reader String
  | .str s => .ok s
  | d => .error (Reader.refusal d)

/-- A choice from a table, in a draft that was kept or not.  Anything but a string and an object
cannot even begin a choice. -/
def reader (table : String → Option (Choice α)) (kept : Bool) : Reader α
  | .str s => do
    match ← Reader.known (table s) with
    | bare a => return a
    | holding _ => throw .mismatch
  | .obj ((k, value) :: rest) => do
    let choice ← Reader.known (table (← key k))
    let a ← choice.content (nothing kept) value
    Reader.finish a rest
  | _ => .error .malformed

/-- One of several names. -/
def word (table : String → Option α) : Reader α :=
  reader (fun s => (table s).map bare) false

end Choice

/-! ## Tagged values -/

/-- A member of a tagged value. -/
inductive Mark where
  | tag
  | content

namespace Tagged

variable {α : Type}

/-- The first member that is the tag or the content, and the members behind it. -/
def relevant (tag content : String) :
    List (Draft × Draft) → Except Fault (Option (Mark × Draft × List (Draft × Draft)))
  | [] => .ok none
  | (key, value) :: rest => do
    let name ← Reader.name key
    if name = tag then return some (.tag, value, rest)
    else if name = content then return some (.content, value, rest)
    else
      Reader.skip value
      relevant tag content rest

/-- Refuses a second tag or content. -/
def finish (tag content : String) (a : α) (rest : List (Draft × Draft)) : Except Fault α := do
  match ← relevant tag content rest with
  | none => return a
  | some _ => throw .mismatch

/-- A value that is tagged in an object. -/
def ofObject (tag content : String) (table : Bool → String → Option (Choice α))
    (members : List (Draft × Draft)) : Except Fault α := do
  let choice (kept : Bool) (value : Draft) : Except Fault (Choice α) :=
    Choice.word (table kept) value
  match ← relevant tag content members with
  | none => throw .mismatch
  | some (.tag, value, rest) =>
    let c ← choice false value
    match ← relevant tag content rest with
    | some (.content, value, rest) => finish tag content (← c.content Reader.null value) rest
    | some (.tag, _, _) => throw .mismatch
    | none =>
      match c with
      | .bare a => return a
      | .holding _ => throw .mismatch
  | some (.content, value, rest) =>
    let kept ← Reader.keep value
    match ← relevant tag content rest with
    | some (.tag, value, rest) =>
      let c ← choice true value
      finish tag content (← Reader.settle (c.content Reader.null kept)) rest
    | _ => throw .mismatch

/-- A value that is tagged in an array. -/
def ofArray (table : String → Option (Choice α)) (items : List Draft) : Except Fault α := do
  let (name, items) ← Reader.next Reader.text items
  let c ← Reader.known (table name)
  let (a, items) ← Reader.next (c.content Reader.null) items
  Reader.finish a items

/-- A value that keeps its tag and its content in two members, or in an array.  The table of
choices is told whether they are read from a draft that was kept. -/
def reader (tag content : String) (table : Bool → String → Option (Choice α)) : Reader α
  | .obj members => ofObject tag content table members
  | .arr items => ofArray (table false) items
  | d => .error (Reader.refusal d)

/-! ## Tags beside fields -/

/-- The fields that the tag of an object stands for, if there is one, and the other members. -/
def divide (tag : String) (table : String → Option (Fields α)) :
    Option (Fields α) → List (Draft × Draft) →
      Except Fault (Option (Fields α) × List (Draft × Draft))
  | found, [] => .ok (found, [])
  | found, (key, value) :: rest => do
    if (← Reader.name key) = tag then
      if found.isSome then throw .mismatch
      let f ← Reader.known (table (← Reader.text value))
      divide tag table (some f) rest
    else
      let kept ← Reader.keep value
      let (found, others) ← divide tag table found rest
      return (found, (key, kept) :: others)

/-- A value that keeps its tag beside its fields, or in front of them in an array. -/
def besideFields (tag : String) (table : String → Option (Fields α)) : Reader α
  | .obj members => do
    let (found, others) ← divide tag table none members
    Reader.settle ((← Reader.known found).ofObject others)
  | .arr items => do
    let (name, items) ← Reader.next Reader.text items
    let f ← Reader.known (table name)
    Reader.settle (f.ofArray (← items.mapM Reader.keep))
  | d => .error (Reader.refusal d)

end Tagged

/-! ## Whole texts -/

namespace Reader

variable {α : Type}

/-- Reads the text of a value with nothing but white space around it.  More than that shows only
behind the value. -/
def ofText (read : Reader α) (s : String) : Except Fault α := do
  let (d, rest) := Draft.ofChars s.toList
  let a ← read d
  if atEnd rest then return a else throw .malformed

/-- Reads a value. -/
def ofValue? (read : Reader α) (j : Json) : Option α := (read (Draft.ofJson j)).toOption

/-! ## Reading what was written -/

@[simp] theorem text_ofJson (s : String) : text (Draft.ofJson (.str s)) = .ok s := rfl

@[simp] theorem bool_ofJson (b : Bool) : bool (Draft.ofJson (.bool b)) = .ok b := rfl

theorem nat_ofJson {limit n : Nat} (h : n ≤ limit) :
    nat limit (Draft.ofJson (.nat n)) = .ok n := by
  simp [Draft.ofJson, nat, h]

/-- A list of values that can be read back can be read back. -/
theorem list_ofList {encode : α → Json} {read : Reader α} {l : List α}
    (h : ∀ a ∈ l, read (Draft.ofJson (encode a)) = .ok a) :
    list read (Draft.ofJson (ofList encode l)) = .ok l := by
  show (Draft.ofItems (l.map encode)).mapM read = .ok l
  rw [Draft.ofItems_eq_map]
  induction l with
  | nil => rfl
  | cons a l ih =>
    simp only [List.map_cons, List.mapM_cons, h a (by simp),
      ih fun b hb => h b (List.mem_cons_of_mem _ hb)]
    rfl

/-- A value that can be read back can be read back behind an option, unless it is written as
`null`. -/
theorem option_ofOption {encode : α → Json} {read : Reader α} {o : Option α}
    (h : ∀ a ∈ o, read (Draft.ofJson (encode a)) = .ok a)
    (hn : ∀ a ∈ o, Draft.ofJson (encode a) ≠ .null) :
    option read (Draft.ofJson (ofOption encode o)) = .ok o := by
  cases o with
  | none => rfl
  | some a =>
    show option read (Draft.ofJson (encode a)) = .ok (some a)
    rw [option, h a rfl]
    · rfl
    · exact hn a rfl

end Reader

end StagedRollout.Json
