/-
# Numbers and dates in TOML

Whole numbers of 64 bits with a sign, in base ten or, behind a mark, in base 16, 8 or 2;
floating-point numbers; dates and times.  Underscores may stand between digits.
-/
import StagedRollout.Magnitude
import StagedRollout.Text.Number
import StagedRollout.Toml.Basic

namespace StagedRollout.Toml

open Text

/-- Whether a character is a digit in base ten. -/
def isDigit (c : Char) : Bool := (digitValue c).isSome

/-- The value of a digit in a base up to 16. -/
def digitIn (base : Nat) (c : Char) : Option Nat :=
  match hexValue c with
  | some d => if d < base then some d else none
  | none => none

/-- Digits behind a digit, each with at most one underscore in front. -/
def moreDigits (isDigit : Char → Bool) : List Char → Option (List Char × List Char)
  | [] => some ([], [])
  | c :: cs =>
    if isDigit c then (moreDigits isDigit cs).map fun (ds, rest) => (c :: ds, rest)
    else if c = '_' then
      match cs with
      | d :: cs =>
        if isDigit d then (moreDigits isDigit cs).map fun (ds, rest) => (d :: ds, rest) else none
      | [] => none
    else some ([], c :: cs)

/-- At least one digit. -/
def someDigits (isDigit : Char → Bool) : List Char → Option (List Char × List Char)
  | [] => none
  | c :: cs =>
    if isDigit c then (moreDigits isDigit cs).map fun (ds, rest) => (c :: ds, rest) else none

/-- The number that digits denote in a base. -/
def valueIn (base : Nat) (ds : List Char) : Nat :=
  ds.foldl (fun n c => n * base + (hexValue c).getD 0) 0

/-- Drops a sign, and tells whether it is a minus. -/
def sign : List Char → Bool × List Char
  | '-' :: cs => (true, cs)
  | '+' :: cs => (false, cs)
  | cs => (false, cs)

/-- Digits in base ten without a needless zero in front. -/
def wholeDigits : List Char → Option (List Char × List Char)
  | '0' :: cs => some (['0'], cs)
  | cs => someDigits isDigit cs

/-- A whole number in a base, behind its mark. -/
def markedInt (base : Nat) (cs : List Char) : Option (Toml × List Char) := do
  let (ds, rest) ← someDigits (fun c => (digitIn base c).isSome) cs
  let n := valueIn base ds
  if n ≤ max63 then return (.int n, rest) else none

/-- A whole number in base ten. -/
def decimalInt (cs : List Char) : Option (Toml × List Char) := do
  let (negative, cs) := sign cs
  let (ds, rest) ← wholeDigits cs
  let n := valueIn 10 ds
  if negative then
    if n ≤ max63 + 1 then return (.int (-n), rest) else none
  else if n ≤ max63 then return (.int n, rest)
  else none

/-- A whole number and what follows it. -/
def int? : List Char → Option (Toml × List Char)
  | '0' :: 'x' :: cs => markedInt 16 cs
  | '0' :: 'o' :: cs => markedInt 8 cs
  | '0' :: 'b' :: cs => markedInt 2 cs
  | cs => decimalInt cs

/-! ## Floating-point numbers -/

/-- An exponent. -/
def exponent? : List Char → Option (Int × List Char)
  | c :: cs =>
    if c = 'e' ∨ c = 'E' then
      let (negative, cs) := sign cs
      (someDigits isDigit cs).map fun (ds, rest) =>
        let n : Int := valueIn 10 ds
        (if negative then -n else n, rest)
    else none
  | [] => none

/-- The digits behind the point and the exponent of a number, of which it has one at least. -/
def fraction? (cs : List Char) : Option (List Char × Int × List Char) :=
  match cs with
  | '.' :: cs =>
    (someDigits isDigit cs).map fun (ds, rest) => (ds, (exponent? rest).getD (0, rest))
  | cs => (exponent? cs).map fun tail => ([], tail)

/-- What follows the name of a floating-point number that has no digits. -/
def skipName? : List Char → Option (List Char)
  | 'i' :: 'n' :: 'f' :: rest => some rest
  | 'n' :: 'a' :: 'n' :: rest => some rest
  | _ => none

/-- The characters of a text in front of one of its ends. -/
def spelled (cs rest : List Char) : String := String.ofList (cs.take (cs.length - rest.length))

/-- A floating-point number and what follows it.  One that only rounding would make infinite is
refused, but not below zero. -/
def float? (cs : List Char) : Option (Toml × List Char) := do
  let (negative, body) := sign cs
  match skipName? body with
  | some rest => return (.float (spelled cs rest), rest)
  | none =>
    let (whole, rest) ← wholeDigits body
    let (decimals, exponent, rest) ← fraction? rest
    let digits := valueIn 10 (whole ++ decimals)
    if !negative && Magnitude.exceeds digits (exponent - decimals.length) then none
    else return (.float (spelled cs rest), rest)

/-! ## Dates and times -/

/-- A number of exactly `width` digits between two bounds. -/
def field? (width low high : Nat) (cs : List Char) : Option (Nat × List Char) :=
  let ds := cs.take width
  if ds.length = width ∧ ds.all isDigit then
    let n := valueIn 10 ds
    if low ≤ n ∧ n ≤ high then some (n, cs.drop width) else none
  else none

/-- What follows a character. -/
def behind? (c : Char) : List Char → Option (List Char)
  | [] => none
  | d :: cs => if d = c then some cs else none

/-- The number of days of a month. -/
def daysIn (year month : Nat) : Nat :=
  if month = 2 then
    if year % 4 = 0 ∧ (year % 100 ≠ 0 ∨ year % 400 = 0) then 29 else 28
  else if month = 4 ∨ month = 6 ∨ month = 9 ∨ month = 11 then 30
  else 31

/-- What follows a day. -/
def skipDay? (cs : List Char) : Option (List Char) := do
  let (year, cs) ← field? 4 0 9999 cs
  let (month, cs) ← field? 2 1 12 (← behind? '-' cs)
  let (_, cs) ← field? 2 1 (daysIn year month) (← behind? '-' cs)
  return cs

/-- What follows parts of a second, if there are any. -/
def skipParts (cs : List Char) : List Char :=
  match cs with
  | '.' :: c :: rest => if isDigit c then rest.dropWhile isDigit else cs
  | _ => cs

/-- What follows a time of a day. -/
def skipTime? (cs : List Char) : Option (List Char) := do
  let (_, cs) ← field? 2 0 23 cs
  let (_, cs) ← field? 2 0 59 (← behind? ':' cs)
  let (_, cs) ← field? 2 0 60 (← behind? ':' cs)
  return skipParts cs

/-- What follows the distance from universal time. -/
def skipZone? : List Char → Option (List Char)
  | [] => none
  | c :: cs =>
    if c = 'Z' ∨ c = 'z' then some cs
    else if c = '+' ∨ c = '-' then do
      let (_, cs) ← field? 2 0 23 cs
      let (_, cs) ← field? 2 0 59 (← behind? ':' cs)
      return cs
    else none

/-- What follows the time behind a day, if there is one. -/
def skipMoment (cs : List Char) : List Char :=
  match cs with
  | c :: rest =>
    if c = 'T' ∨ c = 't' ∨ c = ' ' then
      match skipTime? rest with
      | some rest => (skipZone? rest).getD rest
      | none => cs
    else cs
  | [] => cs

/-- A day, a time or both, and what follows. -/
def date? (cs : List Char) : Option (Toml × List Char) :=
  let rest := match skipDay? cs with
    | some rest => some (skipMoment rest)
    | none => skipTime? cs
  rest.map fun rest => (.date (spelled cs rest), rest)

/-- A number or a date, and what follows. -/
def number? (cs : List Char) : Option (Toml × List Char) := date? cs <|> float? cs <|> int? cs

end StagedRollout.Toml
