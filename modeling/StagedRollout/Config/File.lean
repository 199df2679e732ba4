/-
# Configuration files

A configuration is written in TOML, with a table for each group of settings.  Tables and
settings that are not given take their standard values, unknown ones are ignored, and a table
may be given as an array of its settings in order.
-/
import StagedRollout.Config.Basic
import StagedRollout.Json.Reader
import StagedRollout.Text.Number
import StagedRollout.Toml.Document
import StagedRollout.Toml.Printer

namespace StagedRollout

namespace Settings

/-- The settings of a table by name, or in order.  A date counts as a table without settings. -/
def fields? (names : List String) : Toml → Option (List (String × Toml))
  | .table entries => some entries
  | .arr items => some (names.zip items)
  | .date _ => some []
  | _ => none

/-- A setting; the standard value if it is not given. -/
def field {α : Type} (entries : List (String × Toml)) (name : String)
    (read : Toml → Option α) (standard : α) : Option α :=
  match Toml.find? name entries with
  | some v => read v
  | none => some standard

/-- A whole number of at most `limit`. -/
def number (limit : Nat) : Toml → Option Nat
  | .int n => if 0 ≤ n ∧ n ≤ limit then some n.toNat else none
  | _ => none

/-- A truth value. -/
def flag : Toml → Option Bool
  | .bool b => some b
  | _ => none

/-- A text. -/
def text : Toml → Option String
  | .str s => some s
  | _ => none

/-- A socket address. -/
def address : Toml → Option SocketAddress
  | .str s => SocketAddress.parse s
  | _ => none

/-- A number of 32 bits. -/
def number32 : Toml → Option Nat := number Text.max32

/-- A number of 64 bits. -/
def number64 : Toml → Option Nat := number Text.max64

end Settings

open Settings

/-- Reads the directory of the store. -/
def Config.readStore (v : Toml) : Option String := do
  let es ← fields? ["data_dir"] v
  field es "data_dir" text Config.standard.dataDir

/-- Reads a quota. -/
def Quota.ofToml? (v : Toml) : Option Quota := do
  let s := Quota.standard
  let es ← fields?
    ["max_groups_per_rollout", "max_actions_per_group", "max_actions_per_rollout"] v
  return {
    maxGroups := ← field es "max_groups_per_rollout" number32 s.maxGroups
    maxActionsPerGroup := ← field es "max_actions_per_group" number32 s.maxActionsPerGroup
    maxActions := ← field es "max_actions_per_rollout" number32 s.maxActions }

/-- Reads how schedulers work. -/
def SchedulerSettings.ofToml? (v : Toml) : Option SchedulerSettings := do
  let s := SchedulerSettings.standard
  let es ← fields? ["interval_secs", "lock_ttl_secs", "max_retries", "backoff_max_secs",
    "live_resolve_interval_secs", "workers"] v
  return {
    interval := ← field es "interval_secs" number64 s.interval
    lockTtl := ← field es "lock_ttl_secs" number64 s.lockTtl
    maxRetries := ← field es "max_retries" number32 s.maxRetries
    backoffMax := ← field es "backoff_max_secs" number64 s.backoffMax
    liveResolveInterval := ←
      field es "live_resolve_interval_secs" number64 s.liveResolveInterval
    workers := ← field es "workers" number32 s.workers }

/-- Reads how deleted rollouts are reclaimed. -/
def CleanupSettings.ofToml? (v : Toml) : Option CleanupSettings := do
  let s := Config.standard.cleanup
  let es ← fields? ["interval_secs", "in_flight_grace_secs"] v
  return {
    interval := ← field es "interval_secs" number64 s.interval
    inFlightGrace := ← field es "in_flight_grace_secs" number64 s.inFlightGrace }

/-- Reads whether new rollouts wait for approval. -/
def Config.readRollout (v : Toml) : Option Bool := do
  let es ← fields? ["approval_required"] v
  field es "approval_required" flag Config.standard.approvalRequired

/-- Reads how the control API is reached. -/
def ApiSettings.ofToml? (v : Toml) : Option ApiSettings := do
  let s := Config.standard.api
  let es ← fields? ["listen", "timeout_secs"] v
  return {
    listen := ← field es "listen" address s.listen
    timeout := ← field es "timeout_secs" number64 s.timeout }

namespace Config

/-- The configuration that the tables of a document give. -/
def ofTables? (es : List (String × Toml)) : Option Config := do
  let s := Config.standard
  return {
    dataDir := ← field es "store" readStore s.dataDir
    quota := ← field es "quota" Quota.ofToml? s.quota
    scheduler := ← field es "scheduler" SchedulerSettings.ofToml? s.scheduler
    cleanup := ← field es "cleanup" CleanupSettings.ofToml? s.cleanup
    approvalRequired := ← field es "rollout" readRollout s.approvalRequired
    api := ← field es "api" ApiSettings.ofToml? s.api }

/-- The configuration that a text is, if its settings are accepted. -/
def parse (s : String) : Except ConfigFault Config :=
  match (Toml.parse s).bind ofTables? with
  | none => .error .unreadable
  | some c =>
    match c.fault? with
    | some fault => .error fault
    | none => .ok c

/-! ## Writing -/

/-- A setting that is a number. -/
def numberLine (key : String) (n : Nat) : String := Toml.setting key (toString n)

/-- A setting that is a text. -/
def textLine (key s : String) : String := Toml.setting key (Toml.quote s)

/-- A setting that is a truth value. -/
def flagLine (key : String) (b : Bool) : String :=
  Toml.setting key (if b then "true" else "false")

/-- The configuration as a document that gives every setting. -/
def text (c : Config) : String :=
  Toml.document
    [Toml.tableText "store" [textLine "data_dir" c.dataDir],
      Toml.tableText "quota"
        [numberLine "max_groups_per_rollout" c.quota.maxGroups,
          numberLine "max_actions_per_group" c.quota.maxActionsPerGroup,
          numberLine "max_actions_per_rollout" c.quota.maxActions],
      Toml.tableText "scheduler"
        [numberLine "interval_secs" c.scheduler.interval,
          numberLine "lock_ttl_secs" c.scheduler.lockTtl,
          numberLine "max_retries" c.scheduler.maxRetries,
          numberLine "backoff_max_secs" c.scheduler.backoffMax,
          numberLine "live_resolve_interval_secs" c.scheduler.liveResolveInterval,
          numberLine "workers" c.scheduler.workers],
      Toml.tableText "cleanup"
        [numberLine "interval_secs" c.cleanup.interval,
          numberLine "in_flight_grace_secs" c.cleanup.inFlightGrace],
      Toml.tableText "rollout" [flagLine "approval_required" c.approvalRequired],
      Toml.tableText "api"
        [textLine "listen" c.api.listen.text, numberLine "timeout_secs" c.api.timeout]]

end Config

/-! ## JSON -/

/-- A quota in JSON. -/
def Quota.toJson (q : Quota) : Json :=
  .obj [("max_groups_per_rollout", .nat q.maxGroups),
    ("max_actions_per_group", .nat q.maxActionsPerGroup),
    ("max_actions_per_rollout", .nat q.maxActions)]

/-- The sizes of a quota; those that are not given take their standard values. -/
def Quota.fields : Json.Fields Quota :=
  let size (name : String) (standard : Nat) : Json.Fields Nat := .defaulted name .nat32 standard
  Quota.mk <$> size "max_groups_per_rollout" Quota.standard.maxGroups <*>
    size "max_actions_per_group" Quota.standard.maxActionsPerGroup <*>
    size "max_actions_per_rollout" Quota.standard.maxActions

/-- Reads a quota. -/
def Quota.reader : Json.Reader Quota := Quota.fields.reader

/-- How schedulers work, in JSON. -/
def SchedulerSettings.toJson (s : SchedulerSettings) : Json :=
  .obj [("interval_secs", .nat s.interval), ("lock_ttl_secs", .nat s.lockTtl),
    ("max_retries", .nat s.maxRetries), ("backoff_max_secs", .nat s.backoffMax),
    ("live_resolve_interval_secs", .nat s.liveResolveInterval), ("workers", .nat s.workers)]

/-- All settings in JSON. -/
def Config.toJson (c : Config) : Json :=
  .obj [("store", .obj [("data_dir", .str c.dataDir)]), ("quota", c.quota.toJson),
    ("scheduler", c.scheduler.toJson),
    ("cleanup", .obj [("interval_secs", .nat c.cleanup.interval),
      ("in_flight_grace_secs", .nat c.cleanup.inFlightGrace)]),
    ("rollout", .obj [("approval_required", .bool c.approvalRequired)]),
    ("api", .obj [("listen", .str c.api.listen.text), ("timeout_secs", .nat c.api.timeout)])]

example : (Config.parse "[quota]\nmax_groups_per_rollout = 0").toOption = none := by
  decide +kernel

end StagedRollout
