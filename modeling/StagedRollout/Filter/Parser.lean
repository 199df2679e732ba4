/-
# Parsing filters

Or-separated parts of and-separated parts of comparisons and parenthesised filters.  A level
with a single part is that part, and parentheses leave no trace.  The first token that cannot
go on with what stands before it is reported.

The fuel of `disjunction` bounds the depth of parentheses, and the number of tokens bounds it.
-/
import StagedRollout.Filter.Token

namespace StagedRollout.TargetFilter

variable [Wildcard.Limit]

/-- A reader of tokens: its value and the tokens that are left. -/
abbrev Reader (α : Type) := List PlacedToken → Except Fault (α × List PlacedToken)

/-- The next token. -/
def next : Reader PlacedToken
  | [] => .error .unexpectedEnd
  | t :: ts => .ok (t, ts)

/-- The refusal of a token. -/
def refuse {α : Type} (t : PlacedToken) : Except Fault α :=
  .error (.unexpectedToken t.1 t.2.text)

/-- The field that a word names. -/
def fieldOf (name : String) : Except Fault Field :=
  if name = "id" ∨ name = "controllerid" then .ok .id
  else if name = "name" then .ok .name
  else if name = "tag" then .ok .tag
  else
    match Text.dropStart "attribute.".toList name.toList with
    | some (c :: key) => .ok (.attribute (String.ofList (c :: key)))
    | _ => .error (.unknownField name)

/-- The comparison of a field that a word names, behind that word. -/
def comparison (name : String) : Reader Expr := fun ts => do
  let field ← fieldOf name
  let (t, ts) ← next ts
  match t with
  | (_, .op c) =>
    let (v, ts) ← next ts
    match v with
    | (_, .word value) | (_, .quoted value) =>
      if Wildcard.isUsable value.toList then return (.compare field c value, ts)
      else throw (.invalidPattern value)
    | v => refuse v
  | t => refuse t

/-- One part: a comparison, or a filter in parentheses. -/
def primary (inner : Reader Expr) : Reader Expr := fun ts => do
  let (t, ts) ← next ts
  match t with
  | (_, .openParen) =>
    let (e, ts) ← inner ts
    let (t, ts) ← next ts
    match t with
    | (_, .closeParen) => return (e, ts)
    | t => refuse t
  | (_, .word name) => comparison name ts
  | t => refuse t

/-- Parts with a separator between them, at least one.  The fuel bounds their number. -/
def separated (part : Reader Expr) (sep : Token) : Nat → Reader (List Expr)
  | 0, _ => .error .unexpectedEnd
  | fuel + 1, ts => do
    let (e, rest) ← part ts
    match rest with
    | (pos, t) :: rest =>
      if t = sep then
        let (es, rest) ← separated part sep fuel rest
        return (e :: es, rest)
      else return ([e], (pos, t) :: rest)
    | [] => return ([e], [])

/-- A single part stands for itself. -/
def join (wrap : List Expr → Expr) : List Expr → Expr
  | [e] => e
  | es => wrap es

/-- And-separated parts. -/
def conjunction (inner : Reader Expr) : Reader Expr := fun ts => do
  let (es, rest) ← separated (primary inner) .and (ts.length + 1) ts
  return (join .all es, rest)

/-- Or-separated parts, with parentheses nested as deep as the fuel allows. -/
def disjunction : Nat → Reader Expr
  | 0 => fun _ => .error .unexpectedEnd
  | fuel + 1 => fun ts => do
    let (es, rest) ← separated (conjunction (disjunction fuel)) .or (ts.length + 1) ts
    return (join .any es, rest)

/-- The filter that tokens are. -/
def ofTokens (ts : List PlacedToken) : Except Fault Expr :=
  if ts.isEmpty then .error .empty
  else do
    let (e, rest) ← disjunction (ts.length + 1) ts
    match rest with
    | [] => return e
    | t :: _ => refuse t

/-- The filter that the characters of a text are. -/
def parseChars (source : List Char) : Except Fault Expr := do
  ofTokens (← tokenize source)

/-- The filter that a text is. -/
def parse (source : String) : Except Fault Expr := parseChars source.toList

end StagedRollout.TargetFilter
