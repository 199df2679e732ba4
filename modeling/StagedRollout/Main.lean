/-
# The program

Carries out one request on the store that the configuration names, prints the answer and keeps
the store.  The store's file is locked meanwhile, so that it belongs to one process at a time.
-/
import Std.Time.DateTime.Timestamp
import StagedRollout.CommandLine.Invocation
import StagedRollout.Config.File
import StagedRollout.Request.Execute
import StagedRollout.Store.File

namespace StagedRollout.Main

/-- Fails with a message. -/
def fail {α : Type} (message : String) : IO α := throw (IO.userError message)

/-- The value of a result; the program ends with the message of an error. -/
def orFail {ε α : Type} (message : ε → String) : Except ε α → IO α
  | .ok a => return a
  | .error e => fail (message e)

/-- The settings that hold under the options. -/
def loadConfig (o : CommandLine.SharedOptions) : IO Config := do
  let c ← match o.config with
    | some path => orFail ConfigFault.message (Config.parse (← IO.FS.readFile path))
    | none => pure .standard
  return { c with dataDir := o.dataDir.getD c.dataDir }

/-- The time in milliseconds. -/
def clock : IO Nat := do
  return (← Std.Time.Timestamp.now).toMillisecondsSinceUnixEpoch.val.toNat

/-- Runs an operation on the store in a file. -/
def onFile {ε α : Type} (path : String) (op : Operation ε α) : IO (Except ε α) := do
  let handle ← IO.FS.Handle.mk path .append
  unless ← handle.tryLock do fail (StoreError.locked path).message
  let store ← orFail StoreError.message (Store.ofFile (← IO.FS.readFile path))
  let now ← clock
  let env : Surroundings := ⟨fun _ => now, fun _ s => (.ok (), s)⟩
  let (answer, world) := Program.run env op (World.ofStore store)
  IO.FS.writeFile path world.store.toFile
  handle.unlock
  return answer

/-- Carries out the request of a command line.  Patterns of any size are taken. -/
def answer (args : List String) : IO String := do
  let _ := Wildcard.unlimited
  let i ← orFail CommandLine.Fault.message (CommandLine.Invocation.ofArguments args)
  let c ← loadConfig i.shared
  IO.FS.createDirAll c.dataDir
  orFail RequestError.message (← onFile c.storePath (i.request.execute c s!"manager-{← clock}"))

end StagedRollout.Main

/-- Prints the answer to the command line, or why there is none. -/
def main (args : List String) : IO UInt32 := do
  try
    IO.println (← StagedRollout.Main.answer args)
    return 0
  catch e =>
    IO.eprintln s!"error: {e}"
    return 1
