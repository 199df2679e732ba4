/-
# Addresses of messages

A message to the control API says where it is for: by a path with or without a query, by a
whole address with a scheme and an authority, by an authority alone or by a star.  Only the path
matters to the API.  Characters outside ASCII may stand in a path and in a query, but not in an
authority.
-/

namespace StagedRollout.Api.Uri

/-- The length in bytes that an address may have at most. -/
def maxLength : Nat := 65534

/-- Whether a character may stand in a path. -/
def isPathChar (c : Char) : Bool :=
  let n := c.toNat
  n == 0x21 || n == 0x22 || (0x24 ≤ n && n ≤ 0x3B) || n == 0x3D || (0x40 ≤ n && n ≤ 0x5F) ||
    0x61 ≤ n

/-- Whether a character may stand in a query. -/
def isQueryChar (c : Char) : Bool :=
  let n := c.toNat
  n == 0x21 || (0x24 ≤ n && n ≤ 0x3B) || n == 0x3D || 0x3F ≤ n

/-- The path in front of a query and a fragment; there is none if a character is misplaced. -/
def pathOnly? (cs : List Char) : Option (List Char) :=
  let path := cs.takeWhile fun c => c != '?' && c != '#'
  let query := (cs.dropWhile fun c => c != '?' && c != '#').takeWhile (· != '#')
  if path.all isPathChar && (query.drop 1).all isQueryChar then some path else none

/-! ## Authorities -/

/-- What was met in an authority. -/
structure Scan where
  /-- The colons behind the last at sign or bracket. -/
  colons : Nat
  opened : Bool
  closed : Bool
  /-- Whether there was a percent sign behind the last at sign or bracket. -/
  percent : Bool

/-- The characters without a meaning of their own in an authority. -/
def isPlain (c : Char) : Bool := c.isAlphanum || "!$&'()*+,-.;=_~".toList.contains c

/-- One more character of an authority.  A bracket may open and close once, and nothing in front
of it may be encoded but a user's name. -/
def Scan.next (s : Scan) (c : Char) : Option Scan :=
  if c = ':' then if s.colons < 8 then some { s with colons := s.colons + 1 } else none
  else if c = '[' then if s.percent || s.opened then none else some { s with opened := true }
  else if c = ']' then
    if s.opened && !s.closed then some ⟨0, true, true, false⟩ else none
  else if c = '@' then some { s with colons := 0, percent := false }
  else if c = '%' then some { s with percent := true }
  else if isPlain c then some s
  else none

/-- Whether a text is an authority: a host, possibly with a user in front and a port behind. -/
def isAuthority (cs : List Char) : Bool :=
  match cs.foldlM Scan.next ⟨0, false, false, false⟩ with
  | some s =>
    s.opened == s.closed && s.colons ≤ 1 && !s.percent && cs.getLast? != some '@'
  | none => false

/-- Whether a character may stand in a scheme. -/
def isSchemeChar (c : Char) : Bool := c.isAlphanum || "+-.~".toList.contains c

/-- What follows a scheme, and the length of the scheme. -/
def behindScheme? (cs : List Char) : Option (Nat × List Char) :=
  match cs.dropWhile isSchemeChar with
  | ':' :: '/' :: '/' :: rest => some ((cs.takeWhile isSchemeChar).length, rest)
  | _ => none

/-- Whether a character is none that ends an authority. -/
def isInside (c : Char) : Bool := c != '/' && c != '?' && c != '#'

/-- The path of an address: nothing for an authority alone, a slash for a whole address without
one. -/
def pathOf? (cs : List Char) : Option (List Char) :=
  match cs with
  | [] => none
  | ['*'] => some ['*']
  | '/' :: _ => pathOnly? cs
  | _ =>
    match behindScheme? cs with
    | none => if isAuthority cs then some [] else none
    | some (length, rest) =>
      let authority := rest.takeWhile isInside
      if length ≤ 64 && !authority.isEmpty && isAuthority authority then
        (pathOnly? (rest.dropWhile isInside)).map fun path => if path.isEmpty then ['/'] else path
      else none

/-- The path of an address, if it is one. -/
def path? (address : String) : Option String :=
  if address.utf8ByteSize ≤ maxLength then (pathOf? address.toList).map String.ofList else none

example : path? "/api/v1/commands?x=1" = some "/api/v1/commands" := by decide +kernel

example : path? "https://u@h:80/api" = some "/api" := by decide +kernel

example : path? "/a b" = none := by decide +kernel

end StagedRollout.Api.Uri
