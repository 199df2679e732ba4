/-
# Texts and keys in TOML

A text stands in double quotes, where a backslash begins an escape, or in single quotes, where
every character stands for itself.  With three quotes at each end it may go over several lines.
A key is a text on one line or a bare word, and a dotted key is a path of keys.
-/
import StagedRollout.Text.Number
import StagedRollout.Toml.Basic

namespace StagedRollout.Toml

open Text

/-- Drops blanks and tabs in front. -/
def skipBlank (cs : List Char) : List Char := cs.dropWhile fun c => c == ' ' || c == '\t'

/-- The rest behind a line break. -/
def newline? : List Char → Option (List Char)
  | '\n' :: cs => some cs
  | '\r' :: '\n' :: cs => some cs
  | _ => none

/-- Whether a character may stand in a text or a comment: no control character but the tab. -/
def isPrintable (c : Char) : Bool := c == '\t' || (32 ≤ c.toNat && c.toNat ≠ 127)

/-- Drops a comment up to the end of its line. -/
def skipComment : List Char → List Char
  | '#' :: cs => cs.dropWhile isPrintable
  | cs => cs

/-- The character with a number that is written in hexadecimal digits. -/
def scalar? (digits : List Char) : Option Char := do
  let n ← digits.foldlM (fun n c => (hexValue c).map fun d => n * 16 + d) 0
  if n < 0xD800 ∨ (0xDFFF < n ∧ n < 0x110000) then some (Char.ofNat n) else none

/-- The character that an escape stands for, behind its backslash, and what follows. -/
def escape? : List Char → Option (Char × List Char)
  | 'b' :: cs => some ('\x08', cs)
  | 't' :: cs => some ('\t', cs)
  | 'n' :: cs => some ('\n', cs)
  | 'f' :: cs => some ('\x0c', cs)
  | 'r' :: cs => some ('\r', cs)
  | '"' :: cs => some ('"', cs)
  | '\\' :: cs => some ('\\', cs)
  | 'u' :: a :: b :: c :: d :: cs => (scalar? [a, b, c, d]).map fun ch => (ch, cs)
  | 'U' :: a :: b :: c :: d :: e :: f :: g :: h :: cs =>
    (scalar? [a, b, c, d, e, f, g, h]).map fun ch => (ch, cs)
  | _ => none

/-- Drops blanks and line breaks in front. -/
def skipGap : List Char → List Char
  | ' ' :: cs => skipGap cs
  | '\t' :: cs => skipGap cs
  | '\n' :: cs => skipGap cs
  | '\r' :: '\n' :: cs => skipGap cs
  | cs => cs

/-- Drops blanks and line breaks behind a backslash that ends a line. -/
def joinLine? (cs : List Char) : Option (List Char) := (newline? (skipBlank cs)).map skipGap

/-- How many quotes there are in front, up to five. -/
def quoteRun (quote : Char) (cs : List Char) : Nat := ((cs.take 5).takeWhile (· == quote)).length

/-- A text in double quotes behind its opening one.  The fuel bounds the number of its
characters. -/
def basicBody : Nat → List Char → Option (List Char × List Char)
  | 0, _ => none
  | _, [] => none
  | fuel + 1, c :: cs =>
    if c = '"' then some ([], cs)
    else if c = '\\' then do
      let (d, cs) ← escape? cs
      (basicBody fuel cs).map fun (s, rest) => (d :: s, rest)
    else if isPrintable c then (basicBody fuel cs).map fun (s, rest) => (c :: s, rest)
    else none

/-- A text in single quotes behind its opening one. -/
def literalBody : List Char → Option (List Char × List Char)
  | [] => none
  | c :: cs =>
    if c = '\'' then some ([], cs)
    else if isPrintable c then (literalBody cs).map fun (s, rest) => (c :: s, rest)
    else none

/-- A text over several lines behind its opening quotes, where `escapes` tells whether a
backslash begins an escape.  Up to two quotes belong to the text, also in front of the three
that close it.  The fuel bounds the number of its characters. -/
def linesBody (quote : Char) (escapes : Bool) : Nat → List Char → Option (List Char × List Char)
  | 0, _ => none
  | _, [] => none
  | fuel + 1, c :: cs =>
    if c = quote then
      let run := quoteRun quote (c :: cs)
      if 3 ≤ run then some (List.replicate (run - 3) quote, (c :: cs).drop run)
      else (linesBody quote escapes fuel cs).map fun (s, rest) => (c :: s, rest)
    else if c = '\\' ∧ escapes then
      match joinLine? cs with
      | some rest => linesBody quote escapes fuel rest
      | none => do
        let (d, cs) ← escape? cs
        (linesBody quote escapes fuel cs).map fun (s, rest) => (d :: s, rest)
    else
      match newline? (c :: cs) with
      | some rest => (linesBody quote escapes fuel rest).map fun (s, rest) => ('\n' :: s, rest)
      | none =>
        if isPrintable c then
          (linesBody quote escapes fuel cs).map fun (s, rest) => (c :: s, rest)
        else none

/-- Drops the line break that follows opening quotes directly. -/
def skipFirstBreak (cs : List Char) : List Char := (newline? cs).getD cs

/-- A text and what follows it. -/
def text? (cs : List Char) : Option (String × List Char) :=
  let body :=
    match cs with
    | '"' :: '"' :: '"' :: rest => linesBody '"' true (rest.length + 1) (skipFirstBreak rest)
    | '\'' :: '\'' :: '\'' :: rest => linesBody '\'' false (rest.length + 1) (skipFirstBreak rest)
    | '"' :: rest => basicBody (rest.length + 1) rest
    | '\'' :: rest => literalBody rest
    | _ => none
  body.map fun (s, rest) => (String.ofList s, rest)

/-! ## Keys -/

/-- The characters of a bare key. -/
def isBare (c : Char) : Bool := c.isAlphanum || c == '_' || c == '-'

/-- One key and what follows it. -/
def simpleKey? (cs : List Char) : Option (String × List Char) :=
  match cs with
  | '"' :: rest => (basicBody (rest.length + 1) rest).map fun (s, r) => (String.ofList s, r)
  | '\'' :: rest => (literalBody rest).map fun (s, r) => (String.ofList s, r)
  | _ =>
    match cs.takeWhile isBare with
    | [] => none
    | word => some (String.ofList word, cs.dropWhile isBare)

/-- Keys with points between them, and what follows.  The fuel bounds their number. -/
def keys? : Nat → List Char → Option (List String × List Char)
  | 0, _ => none
  | fuel + 1, cs => do
    let (key, rest) ← simpleKey? (skipBlank cs)
    match skipBlank rest with
    | '.' :: rest => (keys? fuel rest).map fun (keys, rest) => (key :: keys, rest)
    | rest => return ([key], rest)

/-- A dotted key with the blanks around it, and what follows. -/
def key? (cs : List Char) : Option (List String × List Char) := keys? (depthLimit - 1) cs

end StagedRollout.Toml
