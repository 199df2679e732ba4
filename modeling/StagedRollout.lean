import StagedRollout.Api.Forward
import StagedRollout.Filter.Printer
import StagedRollout.Json.Outcomes
import StagedRollout.Main
import StagedRollout.Proofs.Progression.Agreement
import StagedRollout.Proofs.Store.Keyed
import StagedRollout.Store.Overview
import StagedRollout.Proofs.Identifier
import StagedRollout.Proofs.Store.View
import StagedRollout.Proofs.Store.Sound
import StagedRollout.Proofs.Progression.Steps
import StagedRollout.Proofs.Progression.Issued
import StagedRollout.Proofs.Rollout.Creation
import StagedRollout.Proofs.Store.Moves
import StagedRollout.Proofs.Store.History
import StagedRollout.Proofs.Store.Sizes
import StagedRollout.Proofs.Program.Operation
import StagedRollout.Proofs.Program.Calm
import StagedRollout.Proofs.Progression.Advance
import StagedRollout.Proofs.Operator.Commands
import StagedRollout.Proofs.Scheduler.Cycle
import StagedRollout.Proofs.Scheduler.Cleanup
import StagedRollout.Proofs.Runs
import StagedRollout.Proofs.Invariants
import StagedRollout.Proofs.Lease.Transactions
import StagedRollout.Proofs.Lease.Spared
import StagedRollout.Proofs.Lease.Fencing
import StagedRollout.Proofs.Lease.Takeover
import StagedRollout.Proofs.Program.Terms
import StagedRollout.Proofs.Scheduler.Holding
import StagedRollout.Proofs.Scheduler.LostLease
import StagedRollout.Proofs.Store.Complete
import StagedRollout.Proofs.Progression.Outcome
import StagedRollout.Proofs.Progression.Restart
import StagedRollout.Proofs.Store.Balanced
import StagedRollout.Proofs.Sharing.Careful
import StagedRollout.Proofs.Sharing.Holders
import StagedRollout.Proofs.Sharing.System
import StagedRollout.Proofs.Store.Changes
import StagedRollout.Proofs.Outcomes
import StagedRollout.Proofs.Authorisation
import StagedRollout.Proofs.Deletion
import StagedRollout.Proofs.Frozen
import StagedRollout.Proofs.LeftOut
import StagedRollout.Proofs.GroupRows
import StagedRollout.Proofs.Delivery
import StagedRollout.Proofs.Filter.Grammar
import StagedRollout.Proofs.Json.Rows
import StagedRollout.Proofs.Api.Forwarding
import StagedRollout.Proofs.Progression.Arrival
import StagedRollout.Proofs.Scheduler.Pass
import StagedRollout.Proofs.Operator.Atomic
import StagedRollout.Proofs.Lease.Tokens
import StagedRollout.Proofs.Rollout.Shares
import StagedRollout.Proofs.Scheduler.Refreshed
import StagedRollout.Proofs.Independence.Rollouts
import StagedRollout.Proofs.CancelRequests
import StagedRollout.Proofs.Scheduler.GivingUp
import StagedRollout.Proofs.Filter.Wildcard
import StagedRollout.Proofs.Filter.RoundTrip
import StagedRollout.Proofs.Filter.Blame
import StagedRollout.Proofs.Filter.Presence
import StagedRollout.Proofs.Filter.Saved
import StagedRollout.Proofs.Progression.Account
import StagedRollout.Proofs.Listings
import StagedRollout.Proofs.Scheduler.Backoff
