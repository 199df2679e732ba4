/-
# Invocations

A whole command line: the options that every command has, the word for the kind of request, and
the arguments of the request.  The options that every command has may stand anywhere in front of
a lone `--`.
-/
import StagedRollout.CommandLine.Request

namespace StagedRollout.CommandLine

/-- What a user is told. -/
def Fault.message : Fault → String
  | missingArgument => "a required argument is missing"
  | unknownArgument => "there is an argument that the command does not have"
  | unknownCommand => "there is no such command"
  | missingValue => "an option has no value"
  | badValue => "the value of an option cannot be read"
  | conflict => "options exclude each other or are repeated"
  | superfluousValue => "an option that takes no value has one"
  | help | helpInstead =>
    "usage: [--config FILE] [--data-dir DIR] (rollout | target | filter | action | cleanup) ..."

/-- The options that every command has. -/
structure SharedOptions where
  /-- The file that holds the configuration. -/
  config : Option String
  /-- The directory that holds the store, in place of the configured one. -/
  dataDir : Option String
deriving DecidableEq, Repr

namespace SharedOptions

/-- Nothing is given. -/
def empty : SharedOptions := ⟨none, none⟩

/-- The names of the options. -/
def names : List String := ["config", "data-dir"]

/-- Sets an option that has one of the names. -/
def set (o : SharedOptions) (name value : String) : SharedOptions :=
  if name = "config" then { o with config := some value } else { o with dataDir := some value }

/-- Takes the options out of a command line. -/
def take (o : SharedOptions) : List String → Except Fault (SharedOptions × List String)
  | [] => .ok (o, [])
  | word :: rest =>
    match Word.ofString word with
    | .separator => .ok (o, word :: rest)
    | .long name value =>
      if names.contains name then
        match value, rest with
        | some value, rest => (o.set name value).take rest
        | none, value :: rest => (o.set name value).take rest
        | none, [] => .error .missingValue
      else do
        let (o, words) ← o.take rest
        return (o, word :: words)
    | _ => do
      let (o, words) ← o.take rest
      return (o, word :: words)

example : empty.take ["--config", "a.toml", "rollout", "list", "--data-dir=/d"] =
    .ok (⟨some "a.toml", some "/d"⟩, ["rollout", "list"]) := by cbv

end SharedOptions

/-- What a command line asks for. -/
structure Invocation where
  shared : SharedOptions
  request : Request
deriving DecidableEq, Repr

/-- Reads a whole command line. -/
def Invocation.ofArguments (args : List String) : Except Fault Invocation := do
  match ← SharedOptions.empty.take args with
  | (_, []) => throw .helpInstead
  | (shared, kind :: rest) => return ⟨shared, ← CommandLine.request kind rest⟩

end StagedRollout.CommandLine
