/-
# Reading JSON

A recursive descent over the characters of a text, which makes a draft of it.  Every reader
takes the characters that are left and gives what it has read and, unless the text broke off
there, what is left behind it.  Nothing is read behind a broken part, so a reader of drafts that
goes through one from front to back finds the first fault of the text first.

The fuel of `value` bounds the depth of nesting and the number of items at each level.  Every
level and every item takes at least one character, so the number of characters is enough.
-/
import StagedRollout.Json.Draft
import StagedRollout.Magnitude
import StagedRollout.Text.Blank
import StagedRollout.Text.Number

namespace StagedRollout.Json

open Text

/-- The characters that may stand between tokens. -/
def isSpace (c : Char) : Bool := c = ' ' || c = '\n' || c = '\t' || c = '\r'

/-- Drops the white space in front. -/
def skipSpace (cs : List Char) : List Char := cs.dropWhile isSpace

/-- What was read, and the characters behind it if the text did not break off. -/
abbrev Progress (α : Type) := α × Option (List Char)

/-- The draft of a text that breaks off. -/
def brokenOff : Progress Draft := (.broken, none)

/-! ## Strings -/

/-- The number that four hexadecimal digits denote. -/
def hex4 (a b c d : Char) : Option Nat := do
  return (((← hexValue a) * 16 + (← hexValue b)) * 16 + (← hexValue c)) * 16 + (← hexValue d)

/-- The character that a backslash and one further character denote. -/
def simpleEscape (c : Char) : Option Char :=
  if c = '"' then some '"'
  else if c = '\\' then some '\\'
  else if c = '/' then some '/'
  else if c = 'b' then some '\x08'
  else if c = 'f' then some '\x0c'
  else if c = 'n' then some '\n'
  else if c = 'r' then some '\r'
  else if c = 't' then some '\t'
  else none

/-- Whether a number is the first half of a surrogate pair. -/
def isLeading (n : Nat) : Bool := 0xD800 ≤ n && n < 0xDC00

/-- Whether a number is the second half of a surrogate pair. -/
def isTrailing (n : Nat) : Bool := 0xDC00 ≤ n && n < 0xE000

/-- What one character or escape of a string denotes. -/
inductive Piece where
  | char (c : Char)
  /-- Half of a surrogate pair. -/
  | half (n : Nat)

/-- The piece with a number of 16 bits. -/
def Piece.ofUnit (n : Nat) : Piece :=
  if isLeading n || isTrailing n then .half n else .char (Char.ofNat n)

/-- The pieces of a string behind its opening quote, up to its closing one. -/
def stringPieces : List Char → Option (List Piece × List Char)
  | [] => none
  | c :: r =>
    if c = '"' then some ([], r)
    else if c = '\\' then
      match r with
      | 'u' :: a₁ :: a₂ :: a₃ :: a₄ :: r' =>
        match hex4 a₁ a₂ a₃ a₄ with
        | none => none
        | some n => (stringPieces r').map fun (ps, rest) => (.ofUnit n :: ps, rest)
      | e :: r' =>
        match simpleEscape e with
        | none => none
        | some d => (stringPieces r').map fun (ps, rest) => (.char d :: ps, rest)
      | [] => none
    else if c.toNat < 32 then none
    else (stringPieces r).map fun (ps, rest) => (.char c :: ps, rest)

/-- The characters that pieces denote, if each half stands in a pair. -/
def joinPieces : List Piece → Option (List Char)
  | [] => some []
  | .char c :: ps => (joinPieces ps).map (c :: ·)
  | .half u :: .half v :: ps =>
    if isLeading u && isTrailing v then
      (joinPieces ps).map (Char.ofNat (0x10000 + (u - 0xD800) * 0x400 + (v - 0xDC00)) :: ·)
    else none
  | .half _ :: _ => none

/-- A string behind its opening quote. -/
def string (cs : List Char) : Progress Draft :=
  match stringPieces cs with
  | some (ps, rest) =>
    match joinPieces ps with
    | some s => (.str (String.ofList s), some rest)
    | none => (.unreadable, some rest)
  | none => brokenOff

/-! ## Numbers -/

/-- Whether a character is an ASCII decimal digit. -/
def isDigit (c : Char) : Bool := (digitValue c).isSome

/-- The number that decimal digits denote. -/
def natOfDigits (cs : List Char) : Nat :=
  cs.foldl (fun n c => n * 10 + (digitValue c).getD 0) 0

/-- A run of at least one digit. -/
def someDigits (cs : List Char) : Option (List Char × List Char) :=
  match cs.takeWhile isDigit with
  | [] => none
  | ds => some (ds, cs.dropWhile isDigit)

/-- The digits in front of the point; a zero stands alone. -/
def wholePart (cs : List Char) : Option (List Char × List Char) :=
  match someDigits cs with
  | some ('0' :: _ :: _, _) => none
  | other => other

/-- The digits behind a point, or none. -/
def fractionPart : List Char → Option (List Char × List Char)
  | '.' :: cs => someDigits cs
  | cs => some ([], cs)

/-- The sign and the digits of an exponent, or none. -/
def exponentPart : List Char → Option (List Char × List Char)
  | [] => some ([], [])
  | e :: cs =>
    if e = 'e' ∨ e = 'E' then
      match cs with
      | [] => none
      | s :: rest =>
        if s = '+' ∨ s = '-' then (someDigits rest).map fun (ds, r) => (s :: ds, r)
        else (someDigits (s :: rest)).map fun (ds, r) => ('+' :: ds, r)
    else some ([], e :: cs)

/-- The number that a sign and digits denote. -/
def signedOfDigits : List Char → Int
  | '-' :: ds => -natOfDigits ds
  | ds => natOfDigits (ds.drop 1)

/-- Takes the value of a text's first digits onto that of digits in front, as long as it fits 64
bits, and tells how many digits are left. -/
def leadingValue : Nat → List Char → Nat × Nat
  | n, [] => (n, 0)
  | n, c :: cs =>
    let next := n * 10 + (digitValue c).getD 0
    if next ≤ max64 then leadingValue next cs else (n, cs.length + 1)

/-- Whether a number with these digits in front of the point and behind it and this exponent is
beyond the doubles.  Its value is taken from as many of its first digits as fit 64 bits. -/
def isBeyond (whole fraction exponent : List Char) : Bool :=
  let (n, left) := leadingValue 0 whole
  let (n, dropped) := leadingValue n fraction
  let taken : Int := fraction.length - dropped
  Magnitude.roughlyExceeds n (left - taken + signedOfDigits exponent)

/-- How a number is written. -/
def spelled (negative : Bool) (whole fraction exponent : List Char) : String :=
  String.ofList ((if negative then ['-'] else []) ++ whole ++
    (if fraction.isEmpty then [] else '.' :: fraction) ++
    (if exponent.isEmpty then [] else 'e' :: exponent))

/-- A number, given behind its sign. -/
def number (negative : Bool) (cs : List Char) : Progress Draft :=
  let parts := do
    let (whole, cs) ← wholePart cs
    let (fraction, cs) ← fractionPart cs
    let (exponent, cs) ← exponentPart cs
    return (whole, fraction, exponent, cs)
  match parts with
  | none => brokenOff
  | some (whole, fraction, exponent, rest) =>
    if isBeyond whole fraction exponent then (.unreadable, some rest)
    else if negative || !fraction.isEmpty || !exponent.isEmpty then
      (.numeral (spelled negative whole fraction exponent), some rest)
    else (.nat (natOfDigits whole), some rest)

/-! ## Values -/

/-- A word behind its first letter. -/
def word (d : Draft) (letters : List Char) (cs : List Char) : Progress Draft :=
  match dropStart letters cs with
  | some rest => (d, some rest)
  | none => brokenOff

/-- Items of an array up to its closing bracket, at least one. -/
def items (item : List Char → Progress Draft) : Nat → List Char → Progress (List Draft)
  | 0, _ => ([.broken], none)
  | n + 1, cs =>
    match item cs with
    | (d, none) => ([d], none)
    | (d, some r) =>
      match skipSpace r with
      | ',' :: r' =>
        let (ds, rest) := items item n r'
        (d :: ds, rest)
      | ']' :: r' => ([d], some r')
      | _ => ([d, .broken], none)

/-- A member of an object.  What stands in the place of its name is read also if it is no
string. -/
def member (item : List Char → Progress Draft) (cs : List Char) : Progress (Draft × Draft) :=
  match skipSpace cs with
  | '"' :: r =>
    match string r with
    | (name, none) => ((name, .broken), none)
    | (name, some r') =>
      match skipSpace r' with
      | ':' :: r'' =>
        let (d, rest) := item r''
        ((name, d), rest)
      | _ => ((name, .broken), none)
  | cs => (((item cs).1, .broken), none)

/-- Members of an object up to its closing brace, at least one. -/
def members (item : List Char → Progress Draft) : Nat → List Char →
    Progress (List (Draft × Draft))
  | 0, _ => ([(.broken, .broken)], none)
  | n + 1, cs =>
    match member item cs with
    | (m, none) => ([m], none)
    | (m, some r) =>
      match skipSpace r with
      | ',' :: r' =>
        let (ms, rest) := members item n r'
        (m :: ms, rest)
      | '\x7d' :: r' => ([m], some r')
      | _ => ([m, (.broken, .broken)], none)

/-- How deep arrays and objects may be nested. -/
def depthLimit : Nat := 127

/-- The draft of an array or an object at a depth that leaves room for a number of levels. -/
def nested {α : Type} (room : Nat) (make : List α → Draft) : Progress (List α) → Progress Draft
  | (parts, rest) =>
    match room, rest with
    | 0, none => brokenOff
    | 0, some rest => (.unreadable, some rest)
    | _ + 1, rest => (make parts, rest)

/-- A value behind any white space, which leaves room for a number of levels. -/
def value : Nat → Nat → List Char → Progress Draft
  | 0, _, _ => brokenOff
  | n + 1, room, cs =>
    match skipSpace cs with
    | [] => brokenOff
    | c :: r =>
      if c = '"' then string r
      else if c = '[' then
        nested room .arr
          (match skipSpace r with
          | ']' :: rest => ([], some rest)
          | _ => items (value n (room - 1)) n r)
      else if c = '\x7b' then
        nested room .obj
          (match skipSpace r with
          | '\x7d' :: rest => ([], some rest)
          | _ => members (value n (room - 1)) n r)
      else if c = 'n' then word .null ['u', 'l', 'l'] r
      else if c = 't' then word (.bool true) ['r', 'u', 'e'] r
      else if c = 'f' then word (.bool false) ['a', 'l', 's', 'e'] r
      else if c = '-' then number true r
      else number false (c :: r)

/-- The draft of the first value of a text, and what follows it. -/
def Draft.ofChars (cs : List Char) : Progress Draft := value (cs.length + 1) depthLimit cs

/-- Whether nothing but white space is left. -/
def atEnd (rest : Option (List Char)) : Bool := rest.any fun cs => (skipSpace cs).isEmpty

/-- The draft of a text; one with more than white space behind a value is broken. -/
def Draft.ofText (s : String) : Draft :=
  let (d, rest) := Draft.ofChars s.toList
  if atEnd rest then d else .broken

/-- The value that a text is. -/
def parse (s : String) : Option Json := (Draft.ofText s).toJson?

end StagedRollout.Json
