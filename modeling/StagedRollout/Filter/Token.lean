/-
# Tokens of the filter language

A filter text is a sequence of parentheses, separators, comparison signs, words and quoted
values with white space between them.  Inside quotes a backslash takes the next character as it
is.  Every token keeps the position of its first character.
-/
import StagedRollout.Filter.Basic
import StagedRollout.Text.Blank

namespace StagedRollout.TargetFilter

/-- A token. -/
inductive Token where
  | openParen
  | closeParen
  | and
  | or
  | op (c : Comparison)
  | word (text : String)
  | quoted (text : String)
deriving DecidableEq, Repr

/-- A token and the position of its first character. -/
abbrev PlacedToken := Nat × Token

/-- The sign of a comparison. -/
def Comparison.sign : Comparison → String
  | .equal => "=="
  | .different => "!="

/-- A token as it is quoted in an error. -/
def Token.text : Token → String
  | .openParen => "("
  | .closeParen => ")"
  | .and => ";"
  | .or => ","
  | .op c => c.sign
  | .word w => w
  | .quoted q => "\"" ++ q ++ "\""

/-- The characters with a meaning of their own outside quotes. -/
def isReserved (c : Char) : Bool :=
  c = '(' || c = ')' || c = ';' || c = ',' || c = '=' || c = '!' || c = '"'

/-- The characters of a word. -/
def isWordChar (c : Char) : Bool := !Text.isBlank c && !isReserved c

/-- The value behind an opening quote, how many characters it takes with its closing quote, and
what follows. -/
def quotedBody : List Char → Option (List Char × Nat × List Char)
  | [] => none
  | c :: cs =>
    if c = '"' then some ([], 1, cs)
    else if c = '\\' then
      match cs with
      | [] => none
      | e :: rest => (quotedBody rest).map fun (value, n, r) => (e :: value, n + 2, r)
    else (quotedBody cs).map fun (value, n, r) => (c :: value, n + 1, r)

/-- The token that begins with a character that is not white space, how many characters it
takes, and what follows it. -/
def lexeme (pos : Nat) (c : Char) (cs : List Char) : Except Fault (Token × Nat × List Char) :=
  if c = '(' then .ok (.openParen, 1, cs)
  else if c = ')' then .ok (.closeParen, 1, cs)
  else if c = ';' then .ok (.and, 1, cs)
  else if c = ',' then .ok (.or, 1, cs)
  else if c = '=' ∨ c = '!' then
    match cs with
    | '=' :: rest => .ok (.op (if c = '=' then .equal else .different), 2, rest)
    -- the first character of the pair is the one that is reported
    | _ => .error (.unexpectedChar pos c)
  else if c = '"' then
    match quotedBody cs with
    | some (value, n, rest) => .ok (.quoted (String.ofList value), n + 1, rest)
    | none => .error (.unterminatedQuote pos)
  else
    let more := cs.takeWhile isWordChar
    .ok (.word (String.ofList (c :: more)), more.length + 1, cs.dropWhile isWordChar)

/-- The tokens of the characters from a position on.  Every step takes a character at least, so
fuel above the number of characters is never used up. -/
def tokensFrom : Nat → Nat → List Char → Except Fault (List PlacedToken)
  | 0, _, _ => .ok []
  | _, _, [] => .ok []
  | fuel + 1, pos, c :: cs =>
    if Text.isBlank c then tokensFrom fuel (pos + 1) cs
    else
      match lexeme pos c cs with
      | .error e => .error e
      | .ok (t, n, rest) =>
        match tokensFrom fuel (pos + n) rest with
        | .error e => .error e
        | .ok ts => .ok ((pos, t) :: ts)

/-- The tokens of a text. -/
def tokenize (source : List Char) : Except Fault (List PlacedToken) :=
  tokensFrom (source.length + 1) 0 source

end StagedRollout.TargetFilter
