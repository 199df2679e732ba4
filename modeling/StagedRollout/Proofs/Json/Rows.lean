/-
# Rows and requests survive

Every row of the store and every request is written in JSON and read back without loss, as long
as its numbers are in the range of what holds them: 8 bits for a threshold, 32 bits for counts,
indices and weights, 64 bits for times and tokens.
-/
import StagedRollout.Proofs.Json.Reader
import StagedRollout.Request.Json

namespace StagedRollout

open Json (Survives Reader)
open Json.Fields (Reads)

variable {room : Nat}

/-! ## Choices with numbers -/

namespace Condition

/-- The value has the width of its kind. -/
def InRange : Condition → Prop
  | threshold percent => percent ≤ Text.max8
  | count required => required ≤ Text.max32

lemma survives (c : Condition) (h : c.InRange) : Survives (room + 1) reader c.toJson c := by
  cases c with
  | threshold percent =>
    exact .tagged (by decide) rfl (.make threshold (.nat (by decide) h))
  | count required =>
    exact .tagged (by decide) rfl (.make count (.nat32 h))

end Condition

namespace StartPolicy

/-- The time has 64 bits. -/
def InRange : StartPolicy → Prop
  | scheduled startAt => startAt ≤ Text.max64
  | _ => True

lemma survives (p : StartPolicy) (h : p.InRange) : Survives (room + 1) reader p.toJson p := by
  cases p with
  | manual => exact .besideFields rfl (.constant manual) (by decide) (by decide)
  | scheduled startAt =>
    exact .besideFields rfl (.first scheduled (.nat64 h)) (by decide) (by decide)
  | auto => exact .besideFields rfl (.constant auto) (by decide) (by decide)

end StartPolicy

namespace GroupSpec

/-- The numbers have 32 bits. -/
def InRange : GroupSpec → Prop
  | percentages weights => ∀ w ∈ weights, w ≤ Text.max32
  | count n => n ≤ Text.max32
  | explicit _ => True

lemma survives (g : GroupSpec) (h : g.InRange) : Survives (room + 3) reader g.toJson g := by
  cases g with
  | percentages weights =>
    exact .holding rfl (.make percentages (.list fun w hw => .nat32 (h w hw)))
  | count n => exact .holding rfl (.make count (.nat32 h))
  | explicit subsets =>
    exact .holding rfl (.make explicit (.list fun s _ => .list fun t _ => .text t))

end GroupSpec

/-! ## Rows -/

namespace StatusCounts

/-- The counters have 32 bits. -/
structure InRange (c : StatusCounts) : Prop where
  created : c.created ≤ Text.max32
  running : c.running ≤ Text.max32
  download : c.download ≤ Text.max32
  canceling : c.canceling ≤ Text.max32
  canceled : c.canceled ≤ Text.max32
  finishedSuccess : c.finishedSuccess ≤ Text.max32
  finishedError : c.finishedError ≤ Text.max32

lemma survives (c : StatusCounts) (h : c.InRange) : Survives (room + 1) reader c.toJson c := by
  have hreads : Reads room fields _ c := Reads.first StatusCounts.mk (.nat32 h.created)
    |>.field (.nat32 h.running)
    |>.field (.nat32 h.download)
    |>.field (.nat32 h.canceling)
    |>.field (.nat32 h.canceled)
    |>.field (.nat32 h.finishedSuccess)
    |>.field (.nat32 h.finishedError)
  exact hreads.survives (by decide)

end StatusCounts

namespace Rollout

/-- The numbers of a rollout have their widths. -/
structure InRange (r : Rollout) : Prop where
  totalTargets : r.totalTargets ≤ Text.max32
  startPolicy : r.startPolicy.InRange
  weight : r.weight ≤ Text.max32
  createdAt : r.createdAt ≤ Text.max64
  updatedAt : r.updatedAt ≤ Text.max64
  lastResolvedAt : r.lastResolvedAt ≤ Text.max64

lemma survives (r : Rollout) (h : r.InRange) : Survives (room + 2) reader r.toJson r := by
  have hreads : Reads (room + 1) fields _ r := Reads.first Rollout.mk (.text r.id)
    |>.field (.text r.name)
    |>.field (.option (fun s _ => .text s) (fun _ _ => nofun))
    |>.field (.text r.targetFilter)
    |>.field (.text r.distribution)
    |>.field (.list fun s _ => .text s)
    |>.field (.nat32 h.totalTargets)
    |>.field (.named r.state)
    |>.field (.named r.errorAction)
    |>.field (r.startPolicy.survives h.startPolicy)
    |>.field (.named r.resolveMode)
    |>.field (.named r.actionType)
    |>.field (.nat32 h.weight)
    |>.field (.bool r.deleted)
    |>.field (.option (fun s _ => .text s) (fun _ _ => nofun))
    |>.field (.nat64 h.createdAt)
    |>.field (.nat64 h.updatedAt)
    |>.field (.nat64 h.lastResolvedAt)
  exact hreads.survives (by decide)

end Rollout

namespace RolloutGroup

/-- The numbers of a group have their widths. -/
structure InRange (g : RolloutGroup) : Prop where
  index : g.index ≤ Text.max32
  targetCount : g.targetCount ≤ Text.max32
  successCondition : g.successCondition.InRange
  errorCondition : ∀ c ∈ g.errorCondition, c.InRange
  counts : g.counts.InRange
  startedAt : ∀ t ∈ g.startedAt, t ≤ Text.max64
  finishedAt : ∀ t ∈ g.finishedAt, t ≤ Text.max64

lemma survives (g : RolloutGroup) (h : g.InRange) : Survives (room + 2) reader g.toJson g := by
  have hreads : Reads (room + 1) fields _ g := Reads.first RolloutGroup.mk (.text g.id)
    |>.field (.text g.rolloutId)
    |>.field (.nat32 h.index)
    |>.field (.text g.name)
    |>.field (.list fun s _ => .text s)
    |>.field (.nat32 h.targetCount)
    |>.field (g.successCondition.survives h.successCondition)
    |>.field (.option (fun c hc => c.survives (h.errorCondition c hc))
      (fun c _ => by cases c <;> nofun))
    |>.field (.named g.errorAction)
    |>.field (.named g.state)
    |>.field (.option (fun o _ => .named o) (fun _ _ => nofun))
    |>.field (g.counts.survives h.counts)
    |>.field (.bool g.errorAcknowledged)
    |>.field (.option (fun t ht => .nat64 (h.startedAt t ht)) (fun _ _ => nofun))
    |>.field (.option (fun t ht => .nat64 (h.finishedAt t ht)) (fun _ _ => nofun))
  exact hreads.survives (by decide)

end RolloutGroup

namespace Action

/-- The numbers of an action have their widths. -/
structure InRange (a : Action) : Prop where
  weight : a.weight ≤ Text.max32
  createdAt : a.createdAt ≤ Text.max64
  lastStatusAt : a.lastStatusAt ≤ Text.max64

lemma survives (a : Action) (h : a.InRange) : Survives (room + 1) reader a.toJson a := by
  have hreads : Reads room fields _ a := Reads.first Action.mk (.text a.id)
    |>.field (.text a.rolloutId)
    |>.field (.text a.groupId)
    |>.field (.text a.targetId)
    |>.field (.text a.distribution)
    |>.field (.named a.actionType)
    |>.field (.named a.status)
    |>.field (.nat32 h.weight)
    |>.field (.nat64 h.createdAt)
    |>.field (.nat64 h.lastStatusAt)
  exact hreads.survives (by decide)

end Action

namespace Target

/-- The times of a device have 64 bits. -/
structure InRange (t : Target) : Prop where
  registeredAt : t.registeredAt ≤ Text.max64
  lastPollAt : ∀ n ∈ t.lastPollAt, n ≤ Text.max64

lemma survives (t : Target) (h : t.InRange) : Survives (room + 2) reader t.toJson t := by
  have hreads : Reads (room + 1) fields _ t := Reads.first Target.mk (.text t.id)
    |>.field (.text t.name)
    |>.field (.textMap t.attributes)
    |>.field (.list fun s _ => .text s)
    |>.field (.nat64 h.registeredAt)
    |>.field (.option (fun n hn => .nat64 (h.lastPollAt n hn)) (fun _ _ => nofun))
  exact hreads.survives (by decide)

end Target

namespace SavedFilter

/-- The time of a saved filter has 64 bits. -/
def InRange (f : SavedFilter) : Prop := f.createdAt ≤ Text.max64

lemma survives (f : SavedFilter) (h : f.InRange) : Survives (room + 1) reader f.toJson f := by
  have hreads : Reads room fields _ f := Reads.first SavedFilter.mk (.text f.id)
    |>.field (.text f.name)
    |>.field (.text f.query)
    |>.field (.nat64 h)
  exact hreads.survives (by decide)

end SavedFilter

namespace Lease

/-- The token of a lease and its time have 64 bits. -/
structure InRange (l : Lease) : Prop where
  fencing : l.fencing ≤ Text.max64
  expiresAt : l.expiresAt ≤ Text.max64

lemma survives (l : Lease) (h : l.InRange) : Survives (room + 1) reader l.toJson l := by
  have hreads : Reads room fields _ l := Reads.first Lease.mk (.text l.key)
    |>.field (.text l.owner)
    |>.field (.nat64 h.fencing)
    |>.field (.nat64 h.expiresAt)
  exact hreads.survives (by decide)

end Lease

/-! ## Requests -/

namespace RolloutOrder

/-- The numbers of an order have 32 bits. -/
structure InRange (o : RolloutOrder) : Prop where
  groups : ∀ n ∈ o.groups, n ≤ Text.max32
  groupCount : ∀ n ∈ o.groupCount, n ≤ Text.max32
  weight : o.weight ≤ Text.max32

lemma reads (o : RolloutOrder) (room : Nat) (h : o.InRange) :
    ∃ ms, Reads (room + 1) fields ms o ∧ o.toJson = .obj ms.reverse := by
  have hreads : Reads (room + 1) fields _ o := Reads.first RolloutOrder.mk (.text o.name)
    |>.field (.text o.filter)
    |>.field (.text o.distribution)
    |>.field (.list fun n hn => .nat32 (h.groups n hn))
    |>.field (.option (fun n hn => .nat32 (h.groupCount n hn)) (fun _ _ => nofun))
    |>.field (.list fun s _ => .text s)
    |>.field (.text o.success)
    |>.field (.option (fun s _ => .text s) (fun _ _ => nofun))
    |>.field (.text o.errorAction)
    |>.field (.text o.start)
    |>.field (.bool o.live)
    |>.field (.text o.actionType)
    |>.field (.nat32 h.weight)
    |>.field (.option (fun s _ => .text s) (fun _ _ => nofun))
    |>.field (.bool o.requireApproval)
  exact ⟨_, hreads, rfl⟩

end RolloutOrder

namespace Request

lemma survives_withText {α : Type} {table : String → Option (Json.Choice α)} {kept : Bool}
    {s field : String} (make : String → α) (h : table s = holdingText make field)
    (value : String) :
    Survives (room + 2) (Json.Choice.reader table kept) (withText s field value) (make value) := by
  have hreads : Reads room (make <$> Json.Fields.required field Reader.text) _ (make value) :=
    Reads.first make (.text value)
  exact .holding h (hreads.survives (List.pairwise_singleton _ field))

end Request

namespace RolloutRequest

/-- The numbers of a request have 32 bits. -/
def InRange : RolloutRequest → Prop
  | create order => order.InRange
  | _ => True

lemma survives (r : RolloutRequest) (h : r.InRange) (kept : Bool) :
    Survives (room + 3) (Json.Choice.reader choice kept) r.toJson r := by
  cases r with
  | create order =>
    obtain ⟨ms, hreads, hjson⟩ := order.reads room h
    rw [toJson, hjson]
    exact .holding rfl ((hreads.map create).survives (by decide))
  | approve name => exact Request.survives_withText approve (by rfl) name
  | deny name => exact Request.survives_withText deny (by rfl) name
  | start name => exact Request.survives_withText start (by rfl) name
  | pause name => exact Request.survives_withText pause (by rfl) name
  | resume name => exact Request.survives_withText resume (by rfl) name
  | stop name => exact Request.survives_withText stop (by rfl) name
  | delete name => exact Request.survives_withText delete (by rfl) name
  | triggerNext name => exact Request.survives_withText triggerNext (by rfl) name
  | list => exact .bare rfl
  | detail name => exact Request.survives_withText detail (by rfl) name

end RolloutRequest

lemma TargetRequest.survives (r : TargetRequest) (kept : Bool) :
    Survives (room + 4) (Json.Choice.reader choice kept) r.toJson r := by
  cases r with
  | add id name tags attributes =>
    have hpair : ∀ p ∈ attributes, Survives (room + 1) (Reader.pair Reader.text Reader.text)
        (Request.pairToJson p) p := fun p _ => .pair (.text p.1) (.text p.2)
    exact .holding rfl (Reads.survives (Reads.first add (.text id)
      |>.field (.option (fun s _ => .text s) (fun _ _ => nofun))
      |>.field (.list fun s _ => .text s)
      |>.field (.list hpair)) (by decide))
  | remove id => exact Request.survives_withText remove (by rfl) id
  | list filter =>
    exact .holding rfl (Reads.survives (Reads.first list
      (.option (fun s _ => .text s) (fun _ _ => nofun))) (by decide))

lemma FilterRequest.survives (r : FilterRequest) (kept : Bool) :
    Survives (room + 2) (Json.Choice.reader choice kept) r.toJson r := by
  cases r with
  | save id query name =>
    exact .holding rfl (Reads.survives (Reads.first save (.text id)
      |>.field (.text query)
      |>.field (.option (fun s _ => .text s) (fun _ _ => nofun))) (by decide))
  | remove id => exact Request.survives_withText remove (by rfl) id
  | list => exact .bare rfl

lemma DeviceRequest.survives (r : DeviceRequest) (kept : Bool) :
    Survives (room + 2) (Json.Choice.reader choice kept) r.toJson r := by
  cases r with
  | report action status =>
    exact .holding rfl (Reads.survives (Reads.first report (.text action)
      |>.field (.text status)) (by decide))
  | poll target => exact Request.survives_withText poll (by rfl) target

namespace Request

/-- The numbers of a request have 32 bits. -/
def InRange : Request → Prop
  | rollout r => r.InRange
  | _ => True

lemma survives (r : Request) (h : r.InRange) : Survives (room + 5) reader r.toJson r := by
  cases r with
  | rollout r => exact .tagged (by decide) rfl (.make rollout (r.survives h false))
  | target r => exact .tagged (by decide) rfl (.make target (r.survives false))
  | filter r => exact .tagged (by decide) rfl (.make filter (r.survives false))
  | device r => exact .tagged (by decide) rfl (.make device (r.survives false))
  | cleanup => exact .taggedBare rfl

end Request

/-! ## Whole texts -/

/-- Every value in range is read back from the text that it is written as. -/
def Json.ReadBack {α : Type} (InRange : α → Prop) (toJson : α → Json) (reader : Reader α) :
    Prop :=
  ∀ a, InRange a → reader.ofText (toJson a).compact = .ok a

/-- **Rows, the choices in them, and requests are read back from the texts that they are written
as.** -/
theorem rows_and_requests_read_back :
    Json.ReadBack Rollout.InRange Rollout.toJson Rollout.reader ∧
    Json.ReadBack RolloutGroup.InRange RolloutGroup.toJson RolloutGroup.reader ∧
    Json.ReadBack Action.InRange Action.toJson Action.reader ∧
    Json.ReadBack Target.InRange Target.toJson Target.reader ∧
    Json.ReadBack SavedFilter.InRange SavedFilter.toJson SavedFilter.reader ∧
    Json.ReadBack Lease.InRange Lease.toJson Lease.reader ∧
    Json.ReadBack StatusCounts.InRange StatusCounts.toJson StatusCounts.reader ∧
    Json.ReadBack Condition.InRange Condition.toJson Condition.reader ∧
    Json.ReadBack StartPolicy.InRange StartPolicy.toJson StartPolicy.reader ∧
    Json.ReadBack GroupSpec.InRange GroupSpec.toJson GroupSpec.reader ∧
    Json.ReadBack Request.InRange Request.toJson Request.reader :=
  ⟨fun r h => (r.survives h).ofText, fun g h => (g.survives h).ofText,
    fun a h => (a.survives h).ofText, fun t h => (t.survives h).ofText,
    fun f h => (f.survives h).ofText, fun l h => (l.survives h).ofText,
    fun c h => (c.survives h).ofText, fun c h => (c.survives h).ofText,
    fun p h => (p.survives h).ofText, fun g h => (g.survives h).ofText,
    fun r h => (r.survives h).ofText⟩

theorem rows_and_requests_read_back_latest :
    (Condition.threshold Text.max8).InRange ∧ (StartPolicy.scheduled Text.max64).InRange ∧
    (Request.filter (.save "gate\n" "name==\"a\\\"\"" (some "Türe"))).InRange ∧
    Condition.reader.ofText (Condition.threshold Text.max8).toJson.compact =
      .ok (.threshold Text.max8) ∧
    StartPolicy.reader.ofText (StartPolicy.scheduled Text.max64).toJson.compact =
      .ok (.scheduled Text.max64) ∧
    Request.reader.ofText
        (Request.filter (.save "gate\n" "name==\"a\\\"\"" (some "Türe"))).toJson.compact =
      .ok (.filter (.save "gate\n" "name==\"a\\\"\"" (some "Türe"))) := by
  have hthreshold : (Condition.threshold Text.max8).InRange := Nat.le_refl _
  have hscheduled : (StartPolicy.scheduled Text.max64).InRange := Nat.le_refl _
  obtain ⟨-, -, -, -, -, -, -, hcondition, hpolicy, -, hrequest⟩ := rows_and_requests_read_back
  exact ⟨hthreshold, hscheduled, trivial, hcondition _ hthreshold, hpolicy _ hscheduled,
    hrequest _ trivial⟩

end StagedRollout
