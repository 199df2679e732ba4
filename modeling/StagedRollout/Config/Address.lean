/-
# Socket addresses

An IP address and a port: `1.2.3.4:80` or `[2001:db8::1]:443`.  An address of version 6 may
leave out one run of zero groups, may end in an address of version 4, and may name a scope.  It
is written with its longest run of zero groups left out.
-/
import StagedRollout.Text.Number
import StagedRollout.Text.Pad

namespace StagedRollout

/-- An IP address and a port. -/
inductive SocketAddress where
  /-- Four bytes and a port. -/
  | v4 (bytes : List Nat) (port : Nat)
  /-- Eight groups of 16 bits, a scope and a port. -/
  | v6 (groups : List Nat) (scope : Nat) (port : Nat)
deriving DecidableEq, Repr, Inhabited

namespace SocketAddress

open Text

/-- A number in a base, of at least one and at most `most` digits and at most `limit`, and what
follows it. -/
def readNumber (value : Char → Option Nat) (base most limit : Nat) (cs : List Char) :
    Option (Nat × List Char) :=
  let ds := cs.takeWhile fun c => (value c).isSome
  if ds.isEmpty || most < ds.length then none
  else
    let n := ds.foldl (fun n c => n * base + (value c).getD 0) 0
    if n ≤ limit then some (n, cs.dropWhile fun c => (value c).isSome) else none

/-- A byte in decimal digits without a zero in front. -/
def readByte (cs : List Char) : Option (Nat × List Char) :=
  match cs with
  | '0' :: c :: _ => if (digitValue c).isSome then none else readNumber digitValue 10 3 255 cs
  | cs => readNumber digitValue 10 3 255 cs

/-- The bytes of an address of version 4 and what follows it. -/
def readV4 (cs : List Char) : Option (List Nat × List Char) := do
  let (a, cs) ← readByte cs
  let cs ← expect '.' cs
  let (b, cs) ← readByte cs
  let cs ← expect '.' cs
  let (c, cs) ← readByte cs
  let cs ← expect '.' cs
  let (d, cs) ← readByte cs
  return ([a, b, c, d], cs)
where
  /-- The rest behind an expected character. -/
  expect (c : Char) : List Char → Option (List Char)
    | [] => none
    | d :: cs => if d = c then some cs else none

/-- Up to `limit` groups with colons between them, whether the last two came as an address of
version 4, and what follows.  A colon belongs to the group behind it, so one without a group is
left. -/
def readGroups (first : Bool) : Nat → List Char → List Nat × Bool × List Char
  | 0, cs => ([], false, cs)
  | limit + 1, cs =>
    let behindColon : Option (List Char) :=
      if first then some cs
      else match cs with
        | ':' :: cs => some cs
        | _ => none
    match behindColon with
    | none => ([], false, cs)
    | some cs' =>
      -- an embedded address takes two groups
      let embedded := if limit = 0 then none else readV4 cs'
      match embedded with
      | some ([a, b, c, d], rest) => ([a * 256 + b, c * 256 + d], true, rest)
      | _ =>
        match readNumber hexValue 16 4 65535 cs' with
        | some (g, rest) =>
          let (gs, ended, rest) := readGroups false limit rest
          (g :: gs, ended, rest)
        | none => ([], false, cs)

/-- The eight groups of an address of version 6 and what follows it. -/
def readV6 (cs : List Char) : Option (List Nat × List Char) :=
  let (head, ended, rest) := readGroups true 8 cs
  if head.length = 8 then some (head, rest)
  else if ended then none
  else
    match rest with
    | ':' :: ':' :: rest =>
      let (tail, _, rest) := readGroups true (8 - (head.length + 1)) rest
      some (head ++ List.replicate (8 - head.length - tail.length) 0 ++ tail, rest)
    | _ => none

/-- A port at the end of a text. -/
def readPort (cs : List Char) : Option Nat :=
  match cs with
  | ':' :: cs =>
    match readNumber digitValue 10 cs.length 65535 cs with
    | some (port, []) => some port
    | _ => none
  | _ => none

/-- The scope of an address, zero if none is named, and what follows. -/
def readScope (cs : List Char) : Option (Nat × List Char) :=
  match cs with
  | '%' :: cs => readNumber digitValue 10 cs.length max32 cs
  | cs => some (0, cs)

/-- The address that a text is. -/
def parse (s : String) : Option SocketAddress :=
  match s.toList with
  | '[' :: cs => do
    let (groups, cs) ← readV6 cs
    let (scope, cs) ← readScope cs
    match cs with
    | ']' :: cs => return .v6 groups scope (← readPort cs)
    | _ => none
  | cs => do
    let (bytes, cs) ← readV4 cs
    return .v4 bytes (← readPort cs)

/-! ## Writing -/

/-- Numbers in decimal digits with points between them. -/
def dotted (bytes : List Nat) : String := String.intercalate "." (bytes.map toString)

/-- A group in hexadecimal digits. -/
def groupText (g : Nat) : String := String.ofList (Nat.toDigits 16 g)

/-- Groups with colons between them. -/
def colons (groups : List Nat) : String := String.intercalate ":" (groups.map groupText)

/-- How many zero groups there are in front. -/
def leadingZeros (groups : List Nat) : Nat := (groups.takeWhile (· == 0)).length

/-- The start and the length of the longest run of zero groups, the first of several, where
`place` is the place of the first group. -/
def longestZeros (place : Nat) : List Nat → Nat × Nat
  | [] => (place, 0)
  | g :: gs =>
    let here := leadingZeros (g :: gs)
    let later := longestZeros (place + 1) gs
    if later.2 ≤ here then (place, here) else later

/-- An address of version 6. -/
def v6Text (groups : List Nat) : String :=
  match groups with
  | [0, 0, 0, 0, 0, 65535, a, b] => "::ffff:" ++ dotted [a / 256, a % 256, b / 256, b % 256]
  | groups =>
    let (start, length) := longestZeros 0 groups
    if length ≤ 1 then colons groups
    else colons (groups.take start) ++ "::" ++ colons (groups.drop (start + length))

/-- The address as text. -/
def text : SocketAddress → String
  | v4 bytes port => dotted bytes ++ s!":{port}"
  | v6 groups scope port =>
    let named := if scope = 0 then "" else s!"%{scope}"
    "[" ++ v6Text groups ++ named ++ s!"]:{port}"

example : (parse "[2001:db8:0:0::1]:443").map text = some "[2001:db8::1]:443" := by
  decide +kernel

example : (parse "[::ffff:1.2.3.4]:65535").map text = some "[::ffff:1.2.3.4]:65535" := by
  decide +kernel

example : parse "01.2.3.4:80" = none := by decide +kernel

end SocketAddress

end StagedRollout
