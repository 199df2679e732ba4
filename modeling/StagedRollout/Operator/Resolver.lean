/-
# Resolving filters

A resolver finds the devices that a filter selects.  The store's own resolver looks at the
registered devices; a filter of the form `@id` stands for the saved filter with that id.
-/
import StagedRollout.Filter.Parser
import StagedRollout.Ordered.Set
import StagedRollout.Program
import StagedRollout.Rollout.Error

namespace StagedRollout

/-- Finds the devices that a filter selects. -/
abbrev Resolver := String → Operation RolloutError OrderedSet

namespace Resolver

/-- The filter text that a reference stands for. -/
def expand (filter : String) : Operation RolloutError String := do
  match Text.trimChars filter.toList with
  | '@' :: id =>
    let id := String.ofList id
    match ← Operation.mapError .persistence
      (Operation.read fun s => Table.read s.filters id) with
    | some saved => return saved.query
    | none => throw (.invalidFilter (.unknownSaved id))
  | _ => return filter

/-- The ids of the devices that a filter selects. -/
def select (filter : TargetFilter.Expr) (targets : List Target) : OrderedSet :=
  OrderedSet.ofList ((targets.filter fun t => filter.selects t).map (·.id))

/-- Resolves filters against the registered devices. -/
def ofStore [Wildcard.Limit] : Resolver := fun filter => do
  let source ← expand filter
  let expr ← Operation.ofExcept
    ((TargetFilter.parse source).mapError fun e => .invalidFilter (.malformed e))
  let targets ← Operation.mapError .persistence (Operation.read Store.listTargets)
  return select expr targets

end Resolver

end StagedRollout
