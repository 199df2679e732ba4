/-
# Media types

Which content types say that a body is JSON: `application/json`, and every subtype of
`application` that has `json` in front of its last plus sign or behind it.  Parameters may
follow, each behind a semicolon; what they say does not matter, but they have to be well formed.
-/
import StagedRollout.Api.Token
import StagedRollout.Text.Blank

namespace StagedRollout.Api

/-! ## Parameters -/

/-- How far a list of parameters has been read. -/
inductive ParameterPlace where
  /-- Behind a semicolon. -/
  | gap
  | name
  /-- Behind an equals sign. -/
  | start
  | value
  /-- Behind an opening quote. -/
  | opened
  | quoted
  /-- Behind a closing quote. -/
  | closed
deriving DecidableEq, Repr

namespace ParameterPlace

/-- The place behind one more character.  Inside quotes a first character stands for itself, also
if it is a quote. -/
def next : ParameterPlace → Char → Option ParameterPlace
  | gap, c => if c = ' ' then some gap else if isTokenChar c then some name else none
  | name, c => if c = '=' then some start else if isTokenChar c then some name else none
  | start, c => if c = '"' then some opened else if isTokenChar c then some value else none
  | value, c => if c = ';' then some gap else if isTokenChar c then some value else none
  | opened, c => if ' ' ≤ c ∧ c ≤ '~' then some quoted else none
  | quoted, c =>
    if c = '"' then some closed else if ' ' ≤ c ∧ c ≤ '~' then some quoted else none
  | closed, c => if c = ';' then some gap else if c = ' ' then some closed else none

/-- Whether a list of parameters may end at a place. -/
def mayEnd : ParameterPlace → Bool
  | gap | start | value | closed => true
  | name | opened | quoted => false

end ParameterPlace

/-- Whether a text is a list of parameters. -/
def isParameterList (cs : List Char) : Bool :=
  (cs.foldlM ParameterPlace.next .gap).any ParameterPlace.mayEnd

/-! ## Names -/

/-- The part of a text in front of its last plus sign and the part behind it. -/
def splitLastPlus (cs : List Char) : Option (List Char × List Char) :=
  (Text.splitOnce '+' cs.reverse).map fun parts => (parts.2.reverse, parts.1.reverse)

/-- Whether a subtype in lower case stands for JSON.  A plus sign in front splits nothing. -/
def isJsonSubtype (cs : List Char) : Bool :=
  let json := "json".toList
  match splitLastPlus (cs.drop 1) with
  | some (front, suffix) => cs.take 1 ++ front == json || suffix == json
  | none => cs == json

/-- Whether the name of a media type stands for JSON. -/
def isJsonName (cs : List Char) : Bool :=
  match Text.splitOnce '/' (cs.map Char.toLower) with
  | some (kind, subtype) =>
    kind == "application".toList && subtype.all isTokenChar && isJsonSubtype subtype
  | none => false

/-- Whether a content type stands for JSON. -/
def isJsonType (contentType : String) : Bool :=
  match Text.splitOnce ';' contentType.toList with
  | some (name, parameters) => isJsonName name && isParameterList parameters
  | none => isJsonName contentType.toList

example : isJsonType "application/json; charset=utf-8" = true := by decide +kernel

example : isJsonType "application/problem+json" = true := by decide +kernel

example : isJsonType "text/plain" = false := by decide +kernel

end StagedRollout.Api
