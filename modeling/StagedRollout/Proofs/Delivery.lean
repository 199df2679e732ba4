/-
# No accepted report is lost

Any number of senders put reports into a queue while the aggregator takes them out and applies
them, until it is told to shut down or nobody is left to send.  All of them go on in any order.

The queue is not looked into: `Channel` says what is relied on, and a mailbox is such a queue
(`Mailbox.channel`).  Reports are neither lost nor repeated on the way
(`Aggregation.Course.conserves`): what was held and what was accepted since is what has been applied
and what is held now.  The aggregator ends only when the queue is closed and holds nothing, so
all that was accepted has been applied then.
-/
import Mathlib.Logic.Function.Basic
import StagedRollout.Proofs.Invariants

namespace StagedRollout

/-! ## Queues of reports -/

/-- A queue of reports, first in, first out, with limited room.  Once it is closed it takes no
further report, and it still hands out those that it holds. -/
structure Channel (κ : Type) where
  start : κ
  send : κ → StatusReport → Sending × κ
  receive : κ → Receiving × κ
  /-- Refuses further reports. -/
  close : κ → κ
  /-- The reports that were accepted and have not been received yet. -/
  held : κ → List StatusReport
  closed : κ → Prop
  held_start : held start = []
  send_accepted : ∀ {k k' r}, send k r = (.accepted, k') → ¬ closed k ∧ held k' = held k ++ [r]
  /-- A sender is made to wait only while the queue is open. -/
  send_full : ∀ {k k' r}, send k r = (.full, k') → ¬ closed k ∧ held k' = held k
  send_refused : ∀ {k k' r}, send k r = (.refused, k') → k' = k
  receive_report : ∀ {k k' r}, receive k = (.report r, k') →
    held k = r :: held k' ∧ (closed k → closed k')
  /-- The receiver is made to wait only while the queue is open. -/
  receive_nothing : ∀ {k k'}, receive k = (.nothing, k') → ¬ closed k ∧ held k' = held k
  receive_ended : ∀ {k k'}, receive k = (.ended, k') → closed k ∧ held k = [] ∧ k' = k
  closed_close : ∀ k, closed (close k)
  held_close : ∀ k, held (close k) = held k

/-- **Mailboxes are such queues.** -/
def Mailbox.channel (capacity : Nat) : Channel Mailbox where
  start := .ofCapacity capacity
  send := send
  receive := receive
  close := close
  held := waiting
  closed m := m.closed = true
  held_start := rfl
  send_accepted {m m' r} h := by
    refine ⟨fun hclosed => ?_, waiting_send_accepted h⟩
    simp [send_closed hclosed] at h
  send_full {m m' r} h := by
    unfold send at h
    split at h
    · simp at h
    · split at h
      · simp at h
      · rename_i hopen _
        obtain rfl : m = m' := by simpa using h
        exact ⟨hopen, rfl⟩
  send_refused {m m' r} h := by
    unfold send at h
    split at h
    · exact (Prod.mk.inj h).2.symm
    · split at h <;> simp at h
  receive_report {m m' r} h := by
    unfold receive at h
    split at h
    · rename_i hwaiting
      obtain ⟨rfl, rfl⟩ := by simpa using h
      exact ⟨hwaiting, id⟩
    · split at h <;> simp at h
  receive_nothing {m m'} h := by
    unfold receive at h
    split at h
    · simp at h
    · split at h
      · simp at h
      · rename_i hopen
        obtain rfl : m = m' := by simpa using h
        exact ⟨hopen, rfl⟩
  receive_ended {m m'} h := by
    unfold receive at h
    split at h
    · simp at h
    · rename_i hwaiting
      split at h
      · rename_i hclosed
        obtain rfl : m = m' := by simpa using h
        exact ⟨hclosed, hwaiting, rfl⟩
      · simp at h
  closed_close _ := rfl
  held_close _ := rfl

/-! ## Senders and the aggregator -/

/-- What somebody who may send reports is doing. -/
inductive Sender where
  /-- There is no such sender, or there is none any more. -/
  | gone
  | idle
  /-- A report is to be sent, and there was no answer yet. -/
  | sending (r : StatusReport)

/-- How far the aggregator has come. -/
inductive AggregatorPhase where
  /-- It waits for reports and for the signal to shut down. -/
  | running
  /-- It has closed the queue and applies the rest. -/
  | draining
  | ended
deriving DecidableEq

/-- Senders by number, the queue, the aggregator, and the world in which reports are applied. -/
structure Aggregation (κ : Type) where
  queue : κ
  senders : Nat → Sender
  /-- Whether the aggregator has been told to shut down. -/
  signalled : Bool
  phase : AggregatorPhase
  world : World

namespace Aggregation

/-- What may happen. -/
inductive Event where
  /-- A sender begins to send a report. -/
  | called (sender : Nat) (r : StatusReport)
  /-- A sender is told how it went. -/
  | answered (sender : Nat) (r : StatusReport) (answer : Except RolloutError Unit)
  /-- A sender finds no room and waits. -/
  | waited (sender : Nat) (r : StatusReport)
  /-- A sender does not wait any longer. -/
  | abandoned (sender : Nat) (r : StatusReport)
  | joined (sender : Nat)
  | left (sender : Nat)
  | signalled
  /-- The aggregator takes a report out of the queue and applies it. -/
  | applied (r : StatusReport)
  /-- The aggregator finds no report. -/
  | starved
  /-- The aggregator notices the signal and closes the queue. -/
  | closed
  | ended
  /-- Others change the world. -/
  | elsewhere

/-- The report that is accepted. -/
def Event.accepted? : Event → Option StatusReport
  | answered _ r (.ok ()) => some r
  | _ => none

/-- The report that is applied. -/
def Event.applied? : Event → Option StatusReport
  | applied r => some r
  | _ => none

/-- Whether the aggregator does it. -/
def Event.isOwn : Event → Bool
  | applied _ | starved | closed | ended => true
  | _ => false

/-- The reports whose sending succeeded, in the order in which they were accepted. -/
def accepted (events : List Event) : List StatusReport := events.filterMap Event.accepted?

/-- The reports that the aggregator applied, in order. -/
def applied (events : List Event) : List StatusReport := events.filterMap Event.applied?

variable {κ : Type}

/-- One sender does something else. -/
def withSender (c : Aggregation κ) (i : Nat) (sender : Sender) : Aggregation κ :=
  { c with senders := Function.update c.senders i sender }

/-- One sender, and nothing has happened. -/
def start (ch : Channel κ) (w : World) : Aggregation κ where
  queue := ch.start
  senders := Function.update (fun _ => .gone) 0 .idle
  signalled := false
  phase := .running
  world := w

/-- The world behind a report that was applied. -/
def applyTo (env : Surroundings) (fence : Option Fence) (r : StatusReport) (w : World) : World :=
  ((Mailbox.applyDropping fence r).run env w).2

/-- What may happen next. -/
inductive Next (ch : Channel κ) (env : Surroundings) (fence : Option Fence) (c : Aggregation κ) :
    Event → Aggregation κ → Prop
  | call {i : Nat} (hidle : c.senders i = .idle) (r : StatusReport) :
      Next ch env fence c (.called i r) (c.withSender i (.sending r))
  | accept {i : Nat} {r : StatusReport} {k : κ} (hsending : c.senders i = .sending r)
      (hsend : ch.send c.queue r = (.accepted, k)) :
      Next ch env fence c (.answered i r (.ok ())) { c.withSender i .idle with queue := k }
  | refuse {i : Nat} {r : StatusReport} {k : κ} (hsending : c.senders i = .sending r)
      (hsend : ch.send c.queue r = (.refused, k)) :
      Next ch env fence c (.answered i r (.error .mailboxClosed))
        { c.withSender i .idle with queue := k }
  | wait {i : Nat} {r : StatusReport} {k : κ} (hsending : c.senders i = .sending r)
      (hsend : ch.send c.queue r = (.full, k)) :
      Next ch env fence c (.waited i r) { c with queue := k }
  | abandon {i : Nat} {r : StatusReport} (hsending : c.senders i = .sending r) :
      Next ch env fence c (.abandoned i r) (c.withSender i .idle)
  /-- A sender is copied. -/
  | join {i j : Nat} (hpresent : c.senders i ≠ .gone) (hgone : c.senders j = .gone) :
      Next ch env fence c (.joined j) (c.withSender j .idle)
  /-- A sender leaves others behind. -/
  | leave {i j : Nat} (hidle : c.senders i = .idle) (hne : j ≠ i) (hpresent : c.senders j ≠ .gone) :
      Next ch env fence c (.left i) (c.withSender i .gone)
  /-- The last sender leaves, and nobody can send any more. -/
  | leaveLast {i : Nat} (hidle : c.senders i = .idle) (hlast : ∀ j, j ≠ i → c.senders j = .gone) :
      Next ch env fence c (.left i) { c.withSender i .gone with queue := ch.close c.queue }
  | signal : Next ch env fence c .signalled { c with signalled := true }
  | apply {r : StatusReport} {k : κ} (hphase : c.phase ≠ .ended)
      (hreceive : ch.receive c.queue = (.report r, k)) :
      Next ch env fence c (.applied r)
        { c with queue := k, world := applyTo env fence r c.world }
  | starve {k : κ} (hphase : c.phase ≠ .ended) (hreceive : ch.receive c.queue = (.nothing, k)) :
      Next ch env fence c .starved { c with queue := k }
  | close (hphase : c.phase = .running) (hsignal : c.signalled = true) :
      Next ch env fence c .closed { c with queue := ch.close c.queue, phase := .draining }
  /-- There will be no further report. -/
  | finish {k : κ} (hphase : c.phase ≠ .ended) (hreceive : ch.receive c.queue = (.ended, k)) :
      Next ch env fence c .ended { c with queue := ch.close k, phase := .ended }
  | elsewhere (w : World) : Next ch env fence c .elsewhere { c with world := w }

/-- What may happen one after the other. -/
inductive Course (ch : Channel κ) (env : Surroundings) (fence : Option Fence) :
    Aggregation κ → List Event → Aggregation κ → Prop
  | nil (c : Aggregation κ) : Course ch env fence c [] c
  | cons {c c' c'' : Aggregation κ} {e : Event} {events : List Event}
      (hnext : Next ch env fence c e c') (hrest : Course ch env fence c' events c'') :
      Course ch env fence c (e :: events) c''

variable {ch : Channel κ} {env : Surroundings} {fence : Option Fence} {c c' : Aggregation κ}
  {e : Event} {events : List Event} {r : StatusReport} {w : World}

/-! ### Reports are neither lost nor repeated -/

/-- What was held, and a report if one is accepted, is a report if one is applied, and what is held
then. -/
lemma Next.conserves (h : Next ch env fence c e c') :
    ch.held c.queue ++ e.accepted?.toList = e.applied?.toList ++ ch.held c'.queue := by
  cases h with
  | call | abandon | join | leave | signal | elsewhere => exact List.append_nil _
  | accept _ hsend => exact (ch.send_accepted hsend).2.symm
  | refuse _ hsend =>
    rw [ch.send_refused hsend]
    exact List.append_nil _
  | wait _ hsend => exact (List.append_nil _).trans (ch.send_full hsend).2.symm
  | leaveLast | close => exact (List.append_nil _).trans (ch.held_close _).symm
  | apply _ hreceive => exact (List.append_nil _).trans (ch.receive_report hreceive).1
  | starve _ hreceive => exact (List.append_nil _).trans (ch.receive_nothing hreceive).2.symm
  | finish _ hreceive =>
    obtain ⟨-, -, rfl⟩ := ch.receive_ended hreceive
    exact (List.append_nil _).trans (ch.held_close _).symm

lemma accepted_cons (e : Event) (events : List Event) :
    accepted (e :: events) = e.accepted?.toList ++ accepted events := by
  cases he : e.accepted? <;> simp [accepted, he]

lemma applied_cons (e : Event) (events : List Event) :
    applied (e :: events) = e.applied?.toList ++ applied events := by
  cases he : e.applied? <;> simp [applied, he]

/-- **Reports are neither lost nor repeated**, and they keep their order. -/
theorem Course.conserves (h : Course ch env fence c events c') :
    ch.held c.queue ++ accepted events = applied events ++ ch.held c'.queue := by
  induction h with
  | nil c => exact List.append_nil _
  | @cons c c₁ c' e events hnext _ ih =>
    calc ch.held c.queue ++ accepted (e :: events)
        = (ch.held c.queue ++ e.accepted?.toList) ++ accepted events := by
          rw [accepted_cons, List.append_assoc]
      _ = e.applied?.toList ++ (ch.held c₁.queue ++ accepted events) := by
          rw [hnext.conserves, List.append_assoc]
      _ = applied (e :: events) ++ ch.held c'.queue := by
          rw [ih, applied_cons, List.append_assoc]

/-! ### The end of the aggregator -/

/-- Behind the signal the queue is closed, and in the end it holds nothing. -/
structure Sound (ch : Channel κ) (c : Aggregation κ) : Prop where
  closed : c.phase ≠ .running → ch.closed c.queue
  empty : c.phase = .ended → ch.held c.queue = []

lemma sound_start (ch : Channel κ) (w : World) : Sound ch (start ch w) where
  closed h := absurd rfl h
  empty _ := ch.held_start

lemma Sound.next (h : Sound ch c) (hnext : Next ch env fence c e c') : Sound ch c' := by
  cases hnext with
  | call | abandon | join | leave | signal | elsewhere => exact ⟨h.closed, h.empty⟩
  | accept _ hsend =>
    -- an open queue belongs to an aggregator that is running
    have hrun : c.phase = .running := by
      by_contra hphase
      exact (ch.send_accepted hsend).1 (h.closed hphase)
    exact ⟨fun hphase => absurd hrun hphase, fun hphase => by simp_all [withSender]⟩
  | refuse _ hsend =>
    obtain rfl := ch.send_refused hsend
    exact ⟨h.closed, h.empty⟩
  | wait _ hsend =>
    obtain ⟨hopen, hheld⟩ := ch.send_full hsend
    exact ⟨fun hphase => absurd (h.closed hphase) hopen, fun hphase => hheld.trans (h.empty hphase)⟩
  | leaveLast =>
    exact ⟨fun _ => ch.closed_close _, fun hphase => (ch.held_close _).trans (h.empty hphase)⟩
  | apply hphase hreceive =>
    exact ⟨fun hne => (ch.receive_report hreceive).2 (h.closed hne), fun heq => absurd heq hphase⟩
  | starve hphase hreceive =>
    obtain ⟨hopen, -⟩ := ch.receive_nothing hreceive
    exact ⟨fun hne => absurd (h.closed hne) hopen, fun heq => absurd heq hphase⟩
  | close => exact ⟨fun _ => ch.closed_close _, fun heq => by simp at heq⟩
  | finish _ hreceive =>
    obtain ⟨-, hempty, rfl⟩ := ch.receive_ended hreceive
    exact ⟨fun _ => ch.closed_close _, fun _ => (ch.held_close _).trans hempty⟩

lemma Sound.course (h : Sound ch c) (hcourse : Course ch env fence c events c') :
    Sound ch c' := by
  induction hcourse with
  | nil c => exact h
  | cons hnext _ ih => exact ih (h.next hnext)

/-- What may happen when the aggregator has ended: senders are refused, and nothing is applied. -/
structure Event.IsLate (e : Event) : Prop where
  unaccepted : e.accepted? = none
  unapplied : e.applied? = none
  unanswered : ∀ i r, e ≠ .waited i r
  refused : ∀ i r answer, e = .answered i r answer → answer = .error .mailboxClosed

/-- **Behind the end every sender is refused**, and nothing is applied any more. -/
lemma Next.late (hnext : Next ch env fence c e c') (h : Sound ch c) (hended : c.phase = .ended) :
    c'.phase = .ended ∧ e.IsLate ∧ (e = .elsewhere ∨ c'.world = c.world) := by
  have hclosed : ch.closed c.queue := h.closed (by simp [hended])
  cases hnext with
  | call | abandon | join | leave | signal | leaveLast =>
    exact ⟨hended, ⟨rfl, rfl, fun _ _ => by simp, fun _ _ _ => by simp⟩, .inr rfl⟩
  | accept _ hsend => exact absurd hclosed (ch.send_accepted hsend).1
  | refuse =>
    refine ⟨hended, ⟨rfl, rfl, fun _ _ => by simp, fun _ _ answer heq => ?_⟩, .inr rfl⟩
    simp_all
  | wait _ hsend => exact absurd hclosed (ch.send_full hsend).1
  | apply hphase | starve hphase | finish hphase => exact absurd hended hphase
  | close hphase => simp [hended] at hphase
  | elsewhere =>
    exact ⟨hended, ⟨rfl, rfl, fun _ _ => by simp, fun _ _ _ => by simp⟩, .inl rfl⟩

lemma Course.late (hcourse : Course ch env fence c events c') (h : Sound ch c)
    (hended : c.phase = .ended) :
    c'.phase = .ended ∧ (∀ e ∈ events, e.IsLate) ∧ (.elsewhere ∉ events → c'.world = c.world) := by
  induction hcourse with
  | nil c => exact ⟨hended, by simp, fun _ => rfl⟩
  | @cons c c₁ c' e events hnext _ ih =>
    obtain ⟨hphase, hlate, hworld⟩ := hnext.late h hended
    obtain ⟨hphase, hrest, hworlds⟩ := ih (h.next hnext) hphase
    refine ⟨hphase, List.forall_mem_cons.2 ⟨hlate, hrest⟩, fun hnot => ?_⟩
    rw [List.mem_cons, not_or] at hnot
    rw [hworlds hnot.2, hworld.resolve_left (Ne.symm hnot.1)]

/-- A queue that is closed is emptied report by report. -/
lemma Sound.drains (h : Sound ch c) (hphase : c.phase = .draining) :
    ∃ later c', Course ch env fence c later c' ∧ c'.phase = .ended ∧
      ∀ e ∈ later, e.isOwn = true := by
  have hclosed := h.closed (by simp [hphase])
  induction hheld : ch.held c.queue generalizing c with
  | nil =>
    rcases hreceive : ch.receive c.queue with ⟨receiving, k⟩
    cases receiving with
    | report r => simp [(ch.receive_report hreceive).1] at hheld
    | nothing => exact absurd hclosed (ch.receive_nothing hreceive).1
    | ended =>
      exact ⟨[.ended], _, .cons (.finish (by simp [hphase]) hreceive) (.nil _), rfl,
        List.forall_mem_singleton.2 rfl⟩
  | cons x rest ih =>
    rcases hreceive : ch.receive c.queue with ⟨receiving, k⟩
    cases receiving with
    | report r =>
      have hnext : Next ch env fence c (.applied r) _ := .apply (by simp [hphase]) hreceive
      have hrest : ch.held k = rest := by
        have heq := (ch.receive_report hreceive).1
        rw [hheld] at heq
        exact (List.cons.inj heq).2.symm
      obtain ⟨later, c', hcourse, hended, hown⟩ :=
        ih (h.next hnext) hphase ((ch.receive_report hreceive).2 hclosed) hrest
      exact ⟨_, c', .cons hnext hcourse, hended, List.forall_mem_cons.2 ⟨rfl, hown⟩⟩
    | nothing => exact absurd hclosed (ch.receive_nothing hreceive).1
    | ended => simp [(ch.receive_ended hreceive).2.1] at hheld

/-- **Once it is told to shut down the aggregator can end**, by steps of its own. -/
lemma Sound.can_end (h : Sound ch c) (hsignal : c.signalled = true) :
    ∃ later c', Course ch env fence c later c' ∧ c'.phase = .ended ∧
      ∀ e ∈ later, e.isOwn = true := by
  cases hphase : c.phase with
  | running =>
    have hnext : Next ch env fence c .closed _ := .close hphase hsignal
    obtain ⟨later, c', hcourse, hended, hown⟩ := (h.next hnext).drains rfl
    exact ⟨_, c', .cons hnext hcourse, hended, List.forall_mem_cons.2 ⟨rfl, hown⟩⟩
  | draining => exact h.drains hphase
  | ended => exact ⟨[], c, .nil c, hphase, by simp⟩

/-! ### The world -/

lemma applyAll_run (env : Surroundings) (fence : Option Fence) (r : StatusReport)
    (rest : List StatusReport) (w : World) :
    ((Mailbox.applyAll fence (r :: rest)).run env w).2 =
      ((Mailbox.applyAll fence rest).run env (applyTo env fence r w)).2 := by
  rw [Mailbox.applyAll, Program.run_bind]
  rfl

/-- If nobody else changes the world, it is the one behind the reports that were applied. -/
lemma Course.world (h : Course ch env fence c events c') (halone : .elsewhere ∉ events) :
    c'.world = ((Mailbox.applyAll fence (applied events)).run env c.world).2 := by
  induction h with
  | nil c => rfl
  | @cons c c₁ c' e events hnext _ ih =>
    rw [List.mem_cons, not_or] at halone
    rw [ih halone.2]
    cases hnext with
    | apply =>
      rw [applied_cons, Event.applied?, Option.toList_some, List.singleton_append, applyAll_run]
    | elsewhere => exact absurd rfl halone.1
    | _ => rfl

/-! ## What becomes of reports -/

/-- Behind the end a sender is refused at once. -/
lemma Sound.refuses (h : Sound ch c) (hended : c.phase = .ended) (r : StatusReport) :
    ch.send c.queue r = (.refused, c.queue) := by
  have hclosed : ch.closed c.queue := h.closed (by simp [hended])
  rcases hsend : ch.send c.queue r with ⟨sending, k⟩
  cases sending with
  | accepted => exact absurd hclosed (ch.send_accepted hsend).1
  | full => exact absurd hclosed (ch.send_full hsend).1
  | refused => rw [ch.send_refused hsend]

/-- **No accepted report is lost.**  At any time the accepted reports are those that were applied,
in order and once each, and those that are held.  Once the aggregator has ended all of them have
been applied; from then on senders are told that the mailbox is closed, and nothing changes.  If
it is told to shut down, its own steps lead to the end. -/
theorem reports_delivered (h : Course ch env fence (start ch w) events c) :
    accepted events = applied events ++ ch.held c.queue ∧
    (.elsewhere ∉ events →
      c.world = ((Mailbox.applyAll fence (applied events)).run env w).2) ∧
    (c.signalled = true → ∃ later c', Course ch env fence c later c' ∧ c'.phase = .ended ∧
      ∀ e ∈ later, e.isOwn = true) ∧
    (c.phase = .ended → applied events = accepted events ∧
      (∀ i r, c.senders i = .sending r →
        Next ch env fence c (.answered i r (.error .mailboxClosed)) (c.withSender i .idle)) ∧
      ∀ later c', Course ch env fence c later c' →
        (∀ e ∈ later, e.IsLate) ∧ (.elsewhere ∉ later → c'.world = c.world)) := by
  have hsound := (sound_start ch w).course h
  have hconserves : accepted events = applied events ++ ch.held c.queue := by
    have heq := h.conserves
    rwa [show (start ch w).queue = ch.start from rfl, ch.held_start, List.nil_append] at heq
  refine ⟨hconserves, h.world, hsound.can_end, fun hended => ⟨?_, fun i r hsending => ?_,
    fun later c' hlater => (hlater.late hsound hended).2⟩⟩
  · rw [hconserves, hsound.empty hended, List.append_nil]
  · exact .refuse hsending (hsound.refuses hended r)

/-! ### A shutdown while somebody waits -/

/-- A device is done. -/
def done (action : ActionId) : StatusReport := ⟨action, .finishedSuccess, 6⟩

/-- A mailbox with room for one report. -/
def narrow : Channel Mailbox := Mailbox.channel 1

/-- Two reports are sent, and then the signal comes. -/
def shutDown : List Event :=
  [.joined 1, .called 0 (done "r:0000:a"), .called 1 (done "r:0001:b"),
    .answered 0 (done "r:0000:a") (.ok ()), .waited 1 (done "r:0001:b"), .signalled, .closed,
    .answered 1 (done "r:0001:b") (.error .mailboxClosed), .applied (done "r:0000:a"), .ended,
    .called 0 (done "r:0001:b")]

lemma course_shutDown :
    ∃ c, Course narrow Run.quiet none (start narrow (.ofStore .empty)) shutDown c ∧
      c.phase = .ended ∧ c.senders 0 = .sending (done "r:0001:b") := by
  refine ⟨_, .cons (.join (i := 0) (by simp [start]) rfl) (.cons (.call rfl _) (.cons (.call rfl _)
    (.cons (.accept rfl rfl) (.cons (.wait rfl rfl) (.cons .signal (.cons (.close rfl rfl)
      (.cons (.refuse rfl rfl) (.cons (.apply (by decide) rfl) (.cons (.finish (by decide) rfl)
        (.cons (.call rfl _) (.nil _))))))))))), rfl, rfl⟩

theorem reports_delivered_shutDown : ∃ c,
    Course narrow Run.quiet none (start narrow (.ofStore .empty)) shutDown c ∧
    applied shutDown = accepted shutDown ∧
    Next narrow Run.quiet none c (.answered 0 (done "r:0001:b") (.error .mailboxClosed))
      (c.withSender 0 .idle) := by
  obtain ⟨c, hcourse, hended, hsending⟩ := course_shutDown
  obtain ⟨-, -, -, hlate⟩ := reports_delivered hcourse
  obtain ⟨hall, hrefused, -⟩ := hlate hended
  exact ⟨c, hcourse, hall, hrefused 0 _ hsending⟩

end Aggregation

end StagedRollout
