/-
# Command lines

A command line is a word that chooses a form and the arguments that fill the form in.  An
argument that begins with two hyphens names an option; one that takes a value has it behind an
equals sign or as the next argument.  All other arguments are positional, and so is everything
behind a lone `--`.

An option is settled when the next option, the next positional argument or the end is reached.
Only then are its value and its repetition looked at, so that an unknown argument behind it is
reported first.
-/
import StagedRollout.Text.Blank

namespace StagedRollout.CommandLine

/-- Why a command line gives no request. -/
inductive Fault where
  | missingArgument
  | unknownArgument
  | unknownCommand
  /-- An option without its value. -/
  | missingValue
  /-- A value that cannot be read. -/
  | badValue
  /-- Options that exclude each other, or an option that is given twice. -/
  | conflict
  /-- A value for an option that takes none. -/
  | superfluousValue
  /-- Help was asked for. -/
  | help
  /-- No command was given. -/
  | helpInstead
deriving DecidableEq, Repr

/-- What an argument is by its spelling. -/
inductive Word where
  | separator
  | long (name : String) (value : Option String)
  /-- A hyphen and letters, given by the first of them. -/
  | short (letter : Char)
  | plain (text : String)
deriving DecidableEq, Repr

/-- Reads the spelling of an argument. -/
def Word.ofString (s : String) : Word :=
  match s.toList with
  | ['-', '-'] => .separator
  | '-' :: '-' :: cs =>
    match Text.splitOnce '=' cs with
    | some (name, value) => .long (String.ofList name) (some (String.ofList value))
    | none => .long (String.ofList cs) none
  | '-' :: c :: _ => .short c
  | _ => .plain s

/-- How an option is given. -/
inductive Arity where
  /-- Without a value, once. -/
  | flag
  /-- With a value, once. -/
  | once
  /-- With a value, any number of times. -/
  | repeated
deriving DecidableEq, Repr

/-- An option. -/
structure OptionSpec where
  name : String
  arity : Arity
  /-- Whether a value can be read. -/
  accepts : String → Bool

namespace OptionSpec

/-- An option without a value. -/
def flag (name : String) : OptionSpec := ⟨name, .flag, fun _ => true⟩

/-- An option with any text as its value. -/
def text (name : String) : OptionSpec := ⟨name, .once, fun _ => true⟩

/-- An option with any text as its value that may be given several times. -/
def texts (name : String) : OptionSpec := ⟨name, .repeated, fun _ => true⟩

end OptionSpec

/-- What was given. -/
structure Given where
  /-- Options and their values, in order. -/
  options : List (String × String)
  positionals : List String
deriving DecidableEq, Repr

namespace Given

/-- The values of an option. -/
def values (g : Given) (name : String) : List String :=
  g.options.filterMap fun o => if o.1 = name then some o.2 else none

/-- Whether an option was given. -/
def has (g : Given) (name : String) : Bool := g.options.any fun o => o.1 == name

/-- The value of an option that is given once at most. -/
def value? (g : Given) (name : String) : Option String := (g.values name).head?

end Given

/-- What a command takes. -/
structure Form (α : Type) where
  command : String
  /-- How many positional arguments there may be. -/
  positionals : Nat
  options : List OptionSpec
  /-- Options that exclude each other. -/
  conflicts : List (String × String)
  /-- The request that was given; nothing if a part of it is missing. -/
  build : Given → Option α

/-- What was read so far. -/
structure Reading where
  given : Given
  /-- The option that is not settled yet, and its value if that was read. -/
  awaiting : Option (OptionSpec × Option String)

namespace Reading

/-- Nothing was read yet. -/
def empty : Reading := ⟨⟨[], []⟩, none⟩

/-- Settles an option with its value. -/
def settleOption (g : Given) (o : OptionSpec) (value : String) : Except Fault Given :=
  if o.arity ≠ .repeated && g.has o.name then .error .conflict
  else if o.accepts value then .ok { g with options := g.options ++ [(o.name, value)] }
  else .error .badValue

/-- Settles the option that waits, if there is one. -/
def settle (r : Reading) : Except Fault Given :=
  match r.awaiting with
  | none => .ok r.given
  | some (_, none) => .error .missingValue
  | some (o, some value) => settleOption r.given o value

end Reading

namespace Form

variable {α : Type}

/-- Reads an option. -/
def readLong (form : Form α) (name : String) (value : Option String) (r : Reading) :
    Except Fault Reading :=
  match form.options.find? fun o => o.name == name with
  | some o =>
    match o.arity, value with
    | .flag, some _ => .error .superfluousValue
    | .flag, none => do return ⟨← Reading.settleOption (← r.settle) o "", none⟩
    | _, some v => do return ⟨← Reading.settleOption (← r.settle) o v, none⟩
    | _, none => do return ⟨← r.settle, some (o, none)⟩
  | none =>
    if name = "help" then
      match value with
      | some _ => .error .superfluousValue
      | none => do
        let _ ← r.settle
        throw .help
    -- the option in front stays unsettled, whatever is wrong with it
    else .error .unknownArgument

/-- Reads a positional argument. -/
def readPositional (form : Form α) (text : String) (r : Reading) : Except Fault Reading :=
  if r.given.positionals.length < form.positionals then do
    let g ← r.settle
    return ⟨{ g with positionals := g.positionals ++ [text] }, none⟩
  else .error .unknownArgument

/-- Reads an argument that is no option: the value of the option that waits for one, or a
positional argument. -/
def readPlain (form : Form α) (text : String) (r : Reading) : Except Fault Reading :=
  match r.awaiting with
  | some (o, none) => .ok { r with awaiting := some (o, some text) }
  | _ => form.readPositional text r

/-- Reads positional arguments. -/
def readRest (form : Form α) : List String → Reading → Except Fault Reading
  | [], r => .ok r
  | text :: rest, r => do readRest form rest (← form.readPositional text r)

/-- Reads arguments. -/
def readAll (form : Form α) : List String → Reading → Except Fault Reading
  | [], r => .ok r
  | text :: rest, r =>
    match Word.ofString text with
    | .separator => form.readRest rest r
    | .long name value => do readAll form rest (← form.readLong name value r)
    | .short letter =>
      if letter = 'h' then do
        let _ ← r.settle
        throw .help
      else .error .unknownArgument
    | .plain text => do readAll form rest (← form.readPlain text r)

/-- The request that arguments give. -/
def parse (form : Form α) (args : List String) : Except Fault α := do
  let g ← (← form.readAll args .empty).settle
  if form.conflicts.any fun c => g.has c.1 && g.has c.2 then throw .conflict
  match form.build g with
  | some a => return a
  | none => throw .missingArgument

end Form

/-! ## Choosing a form -/

/-- Whether a word is a command. -/
def isCommand {α : Type} (forms : List (Form α)) (word : String) : Bool :=
  word == "help" || forms.any fun f => f.command == word

/-- The answer to the command `help`. -/
def helpOn {α : Type} (forms : List (Form α)) : List String → Fault
  | [] => .help
  | [word] => if isCommand forms word then .help else .unknownCommand
  | _ => .unknownCommand

/-- The answer to a command line that begins with a separator. -/
def behindSeparator {α : Type} (forms : List (Form α)) : List String → Fault
  | [] => .helpInstead
  | word :: _ => if isCommand forms word then .unknownArgument else .unknownCommand

/-- The answer to a command line that begins with a word that is no command. -/
def refuse {α : Type} (forms : List (Form α)) (word : String) (rest : List String) : Fault :=
  if word = "help" then helpOn forms rest
  else
    match Word.ofString word with
    | .separator => behindSeparator forms rest
    | .long "help" none => .help
    | .long "help" (some _) => .superfluousValue
    | .long _ _ => .unknownArgument
    | .short letter => if letter = 'h' then .help else .unknownArgument
    | .plain _ => .unknownCommand

/-- The request that a command line gives, where its first word chooses the form. -/
def parse {α : Type} (forms : List (Form α)) : List String → Except Fault α
  | [] => .error .helpInstead
  | word :: rest =>
    match forms.find? fun f => f.command == word with
    | some form => form.parse rest
    | none => .error (refuse forms word rest)

end StagedRollout.CommandLine
