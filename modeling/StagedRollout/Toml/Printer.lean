/-
# Writing TOML

A text stands in double quotes.  One that would need escapes there because it holds double
quotes, backslashes or line breaks takes the first of these forms in which every character may
stand for itself: single quotes, three double quotes, three single quotes.  If there is none,
as always with other control characters than tabs and line breaks, it is written with escapes.
Behind three opening quotes a text with line breaks begins on the next line.
-/
import StagedRollout.Text.Pad
import StagedRollout.Toml.Basic

namespace StagedRollout.Toml

/-- How many of a character follow each other at most, given how many stand in front. -/
def longestRun (quote : Char) : Nat → List Char → Nat
  | run, [] => run
  | run, c :: cs =>
    if c = quote then longestRun quote (run + 1) cs else max run (longestRun quote 0 cs)

/-- Whether a character needs an escape wherever it stands. -/
def needsEscape (c : Char) : Bool :=
  c != '\t' && c != '\n' && (c.toNat < 32 || c.toNat == 127)

/-- How a text is written. -/
inductive Form where
  /-- In double quotes. -/
  | basic
  /-- In single quotes. -/
  | literal
  /-- In three double quotes. -/
  | basicLines
  /-- In three single quotes. -/
  | literalLines
deriving DecidableEq, Repr

/-- The first form in which every character of a text may stand for itself. -/
def plainForm? (cs : List Char) : Option Form :=
  let double := longestRun '"' 0 cs
  let single := longestRun '\'' 0 cs
  let lines := cs.contains '\n'
  let backslash := cs.contains '\\'
  if cs.any needsEscape then none
  else if !backslash && double = 0 && !lines then some .basic
  else if single = 0 && !lines then some .literal
  else if !backslash && double < 3 then some .basicLines
  else if single < 3 then some .literalLines
  else none

/-- The form of a text. -/
def formOf (cs : List Char) : Form :=
  (plainForm? cs).getD (if cs.contains '\n' then .basicLines else .basic)

/-- A number in four hexadecimal digits. -/
def fourHex (n : Nat) : String :=
  Text.padLeft '0' 4 (String.ofList ((Nat.toDigits 16 n).map Char.toUpper))

/-- A character with an escape if it needs one, in a text over several lines or not. -/
def escaped (lines : Bool) (c : Char) : String :=
  if c = '\x08' then "\\b"
  else if c = '\t' then "\\t"
  else if c = '\n' then if lines then "\n" else "\\n"
  else if c = '\x0c' then "\\f"
  else if c = '\r' then "\\r"
  else if c = '\\' then "\\\\"
  else if needsEscape c then "\\u" ++ fourHex c.toNat
  else String.singleton c

/-- A text with escapes, where a double quote needs one behind `allowed` others. -/
def escapedBody (lines : Bool) (allowed : Nat) : Nat → List Char → List String
  | _, [] => []
  | run, c :: cs =>
    if c = '"' then
      if run = allowed then "\\\"" :: escapedBody lines allowed 0 cs
      else "\"" :: escapedBody lines allowed (run + 1) cs
    else escaped lines c :: escapedBody lines allowed 0 cs

/-- A text in quotes. -/
def quote (s : String) : String :=
  let cs := s.toList
  let opening := if cs.contains '\n' then "\n" else ""
  match formOf cs with
  | .basic => "\"" ++ String.join (escapedBody false 0 0 cs) ++ "\""
  | .literal => "'" ++ s ++ "'"
  | .basicLines => "\"\"\"" ++ opening ++ String.join (escapedBody true 2 0 cs) ++ "\"\"\""
  | .literalLines => "'''" ++ opening ++ s ++ "'''"

/-- A key with a value that is written already. -/
def setting (key value : String) : String := key ++ " = " ++ value ++ "\n"

/-- A table with its settings. -/
def tableText (name : String) (settings : List String) : String :=
  "[" ++ name ++ "]\n" ++ String.join settings

/-- Tables with an empty line between them. -/
def document (sections : List String) : String := String.intercalate "\n" sections

example : quote "C:\\x" = "'C:\\x'" := by decide +kernel

example : quote "/var/lib" = "\"/var/lib\"" := by decide +kernel

end StagedRollout.Toml
