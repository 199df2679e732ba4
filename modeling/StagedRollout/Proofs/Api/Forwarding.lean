/-
# Forwarding agrees with carrying out

A request that is sent to the process that holds the store has the same result and the same
effect as one that is carried out there at once.  Status reports are the exception: they wait in
the mailbox, and their effect is the same as soon as the reports that wait have been applied.
-/
import StagedRollout.Api.Forward
import StagedRollout.Proofs.Json.Rows

namespace StagedRollout

/-! ## Reports that are applied -/

namespace Mailbox

/-- The store behind a report. -/
def reported (s : Store) (r : StatusReport) : Store :=
  (s.commit none 0 (Transaction.report r.action r.status r.reportedAt)).2

/-- Reports that are applied change the store alone. -/
lemma applyAll_run (env : Surroundings) (l : List StatusReport) (w : World) :
    (applyAll none l).run env w = ((), { w with store := l.foldl reported w.store }) := by
  induction l generalizing w with
  | nil => rfl
  | cons r l ih =>
    rw [applyAll, Program.run_bind]
    exact ih _

lemma drain_run (env : Surroundings) (m : Mailbox) (w : World) :
    (m.drain none).run env w =
      ({ m with waiting := [] }, { w with store := m.waiting.foldl reported w.store }) := by
  rw [drain, Program.run_bind, applyAll_run]
  rfl

/-- A mailbox that takes reports. -/
structure Serving (m : Mailbox) : Prop where
  capacity : 0 < m.capacity
  opened : m.closed = false

lemma send_of_room (m : Mailbox) (hopen : m.closed = false)
    (hroom : m.waiting.length < m.capacity) (r : StatusReport) :
    m.send r = (.accepted, { m with waiting := m.waiting ++ [r] }) := by
  simp [send, hopen, hroom]

/-- A report that was sent is behind those that waited before, once all of them are applied. -/
lemma submit_then_drain {m : Mailbox} (h : m.Serving) (env : Surroundings) (r : StatusReport)
    (w : World) : ∃ m' w', (m.submit none r).run env w = ((.ok (), m'), w') ∧
      (m'.drain none).run env w' = ({ m with waiting := [] },
        { w with store := reported (m.waiting.foldl reported w.store) r }) := by
  by_cases hroom : m.waiting.length < m.capacity
  · refine ⟨_, w, by rw [submit, send_of_room m h.opened hroom]; rfl, ?_⟩
    simp [drain_run]
  · -- those that waited have been applied before the report is let in
    have hfull : m.send r = (.full, m) := by simp [send, h.opened, hroom]
    have hempty : ({ m with waiting := [] } : Mailbox).send r =
        (.accepted, { m with waiting := [r] }) :=
      send_of_room { m with waiting := [] } h.opened h.capacity r
    refine ⟨{ m with waiting := [r] },
      { w with store := m.waiting.foldl reported w.store }, ?_, by simp [drain_run]⟩
    rw [submit, hfull]
    show ((m.drain none >>= _).run env w) = _
    rw [Program.run_bind, drain_run]
    simp [hempty]

end Mailbox

namespace Api

variable {c : Config} {owner : String} {env : Surroundings} {m : Mailbox} {w : World}

/-- What is made of a request by the one who sent it, where the message and the answer arrive as
they were sent. -/
def carried [Wildcard.Limit] (c : Config) (owner : String) (r : Request) :
    Handler (Except ForwardError String) :=
  do return readResponse (← runCommand c owner r).toResponse

/-! ## The way there -/

lemma ofPath_commands : Route.ofPath "/api/v1/commands" = some .commands := by cbv

lemma isJsonType_json : isJsonType "application/json" = true := by cbv

/-- A message that is not too long hands over its request. -/
lemma forward_eq_carried [Wildcard.Limit] [Refusals] {r : Request} (h : r.InRange)
    (hsize : (message r).body.utf8ByteSize ≤ maxBodySize) (c : Config) (owner : String) :
    forward c owner r = carried c owner r := by
  have hbody : Request.reader.ofText (message r).body = .ok r := (r.survives h).ofText
  have hhandle : handle c owner (message r) =
      do return (← runCommand c owner r).toResponse := by
    have hroute : Route.ofPath (message r).path = some .commands := ofPath_commands
    have hmethod : (message r).method = "POST" := rfl
    have htype : (message r).contentType.any isJsonType = true := isJsonType_json
    simp only [handle, hroute]
    rw [if_pos hmethod, withBody, htype, if_neg (by decide), if_neg (Nat.not_lt.2 hsize), hbody]
  simp only [forward, carried, hhandle, bind_assoc, pure_bind]

/-! ## The way back -/

/-- An answer with a text is read as what it says. -/
lemma readResponse_text (status : Nat) (content : Except String String) :
    readResponse (Reply.toResponse ⟨status, content.map .str⟩) = content.mapError .refused := by
  have hfits : Json.Fits Json.depthLimit (Reply.toJson ⟨status, content.map .str⟩) := by
    cases content with
    | ok text | error text =>
      exact .obj (List.forall_mem_cons.2 ⟨.bool _, List.forall_mem_singleton.2 (.str text)⟩)
  rw [readResponse, Reply.toResponse, Json.ofText_compact _ hfits]
  cases content <;> rfl

lemma readResponse_answered (answer : Except RequestError String) :
    readResponse (answered answer).toResponse = answer.mapError fun e => .refused e.message := by
  cases answer with
  | ok text => exact readResponse_text 200 (.ok text)
  | error e => exact readResponse_text (errorStatus e) (.error e.message)

/-! ## What the handler does -/

lemma lift_run {α : Type} (p : Program α) :
    ((StateT.lift p : Handler α).run m).run env w = (((p.run env w).1, m), (p.run env w).2) := by
  rw [StateT.run_lift, Program.run_bind]
  rfl

lemma bind_run {α β : Type} (h : Handler α) (f : α → Handler β) :
    ((h >>= f).run m).run env w =
      let after := (h.run m).run env w
      ((f after.1.1).run after.1.2).run env after.2 := by
  rw [StateT.run_bind, Program.run_bind]

lemma carried_run [Wildcard.Limit] (r : Request) :
    ((carried c owner r).run m).run env w =
      let after := ((runCommand c owner r).run m).run env w
      ((readResponse after.1.1.toResponse, after.1.2), after.2) := by
  rw [carried, bind_run]
  rfl

/-- Whether a request is a report. -/
def isReport : Request → Bool
  | .device (.report _ _) => true
  | _ => false

/-- What a request does that is carried out where the store is held. -/
def direct [Wildcard.Limit] (c : Config) (owner : String) (env : Surroundings) (r : Request)
    (w : World) : Except RequestError String × World :=
  (ExceptT.run (r.execute c owner)).run env w

/-- A request that is no report is carried out at once. -/
lemma carried_of_not_report [Wildcard.Limit] {r : Request} (h : isReport r = false) :
    ((carried c owner r).run m).run env w =
      (((direct c owner env r w).1.mapError fun e => .refused e.message, m),
        (direct c owner env r w).2) := by
  have hcommand : runCommand c owner r =
      do return answered (← StateT.lift (ExceptT.run (r.execute c owner))) := by
    unfold runCommand
    split
    · cases h
    · rfl
  rw [carried_run, hcommand, bind_run, lift_run]
  exact congrArg (fun a => ((a, m), (direct c owner env r w).2)) (readResponse_answered _)

/-! ## Reports -/

/-- A report whose word is unknown is refused by both, and nothing has happened. -/
lemma carried_of_unknown_word [Wildcard.Limit] {id : ActionId} {word : String} {e : RequestError}
    (h : Request.readStatus word = .error e) :
    ((carried c owner (.device (.report id word))).run m).run env w =
        ((.error (.refused e.message), m), w) ∧
      direct c owner env (.device (.report id word)) w = (.error e, w) := by
  constructor
  · rw [carried_run, runCommand, h]
    exact congrArg (fun a => ((a, m), w)) (readResponse_text 400 (.error e.message))
  · rw [direct, Request.execute, Request.executeDevice, h]
    rfl

lemma apply_run (env : Surroundings) (w : World) (report : StatusReport) :
    ((ExceptT.run (Request.operate (report.apply none))).run env w).2 =
      { w with store := Mailbox.reported w.store report } := rfl

lemma direct_report [Wildcard.Limit] {id : ActionId} {word : String} {status : ActionStatus}
    (h : Request.readStatus word = .ok status) :
    (direct c owner env (.device (.report id word)) w).2 =
      { (w.readClock env).2 with
        store := Mailbox.reported w.store ⟨id, status, (w.readClock env).1 / 1000⟩ } := by
  let report : StatusReport := ⟨id, status, (w.readClock env).1 / 1000⟩
  have happly := apply_run env (w.readClock env).2 report
  rw [direct, Request.execute, Request.executeDevice, h]
  show (Program.run env (ExceptT.run (Request.operate (report.apply none) >>= fun outcome =>
    Operation.ofExcept (Request.reportText id outcome))) (w.readClock env).2).2 = _
  rw [ExceptT.run_bind, Program.run_bind]
  split <;> exact happly

lemma carried_report [Wildcard.Limit] {id : ActionId} {word : String} {status : ActionStatus}
    (h : Request.readStatus word = .ok status) (hm : m.Serving) :
    ∃ m' w', ((carried c owner (.device (.report id word))).run m).run env w =
        ((.ok s!"report for {id} queued", m'), w') ∧
      (m'.drain none).run env w' =
        ({ m with waiting := [] }, { (w.readClock env).2 with
          store := Mailbox.reported (m.waiting.foldl Mailbox.reported w.store)
            ⟨id, status, (w.readClock env).1 / 1000⟩ }) := by
  obtain ⟨m', w', hsubmit, hdrain⟩ := Mailbox.submit_then_drain hm env
    ⟨id, status, (w.readClock env).1 / 1000⟩ (w.readClock env).2
  refine ⟨m', w', ?_, hdrain⟩
  have hqueue : ((queue id status).run m).run env w = ((.ok (), m'), w') := by
    rw [queue, bind_run, lift_run]
    exact hsubmit
  rw [carried_run, runCommand, h]
  simp only [bind_run, hqueue]
  exact congrArg (fun a => ((a, m'), w')) (readResponse_text 200 (.ok _))

/-- **Forwarding agrees with carrying out.**  What is not a report has the same answer and the same
effect.  A report with an unknown word is refused alike.  Any other report has the same effect
once the mailbox has been drained, behind the reports that waited in it. -/
theorem forwarding_agrees [Wildcard.Limit] [Refusals] (c : Config) (owner : String)
    (env : Surroundings) (r : Request) (m : Mailbox) (w : World) :
    (r.InRange → (message r).body.utf8ByteSize ≤ maxBodySize →
      forward c owner r = carried c owner r) ∧
    (isReport r = false →
      ((carried c owner r).run m).run env w =
        (((direct c owner env r w).1.mapError fun e => .refused e.message, m),
          (direct c owner env r w).2)) ∧
    (∀ id word e, r = .device (.report id word) → Request.readStatus word = .error e →
      ((carried c owner r).run m).run env w = ((.error (.refused e.message), m), w) ∧
      direct c owner env r w = (.error e, w)) ∧
    (∀ id word status, r = .device (.report id word) → Request.readStatus word = .ok status →
      m.Serving → ∃ m' w',
        ((carried c owner r).run m).run env w = ((.ok s!"report for {id} queued", m'), w') ∧
        (m'.drain none).run env w' = ({ m with waiting := [] },
          (direct c owner env r ((m.drain none).run env w).2).2)) := by
  refine ⟨fun h hsize => forward_eq_carried h hsize c owner, carried_of_not_report, ?_, ?_⟩
  · rintro id word e rfl h
    exact carried_of_unknown_word h
  · rintro id word status rfl h hm
    obtain ⟨m', w', hcarried, hdrain⟩ := carried_report (c := c) (w := w) h hm
    refine ⟨m', w', hcarried, ?_⟩
    rw [hdrain, direct_report h, Mailbox.drain_run]
    rfl

/-- A library that gives no reasons. -/
scoped instance silent : Refusals := ⟨fun _ _ => ""⟩

open scoped Wildcard in
theorem forwarding_agrees_standard :
    let env : Surroundings := ⟨fun n => 1000 * n, fun _ s => (.ok (), s)⟩
    let report : Request := .device (.report "r:0000:a" "finished-success")
    forward .standard "cli" (.filter .list) = carried .standard "cli" (.filter .list) ∧
    ∃ m' w',
      ((carried .standard "cli" report).run (.ofCapacity 8)).run env (.ofStore .empty) =
        ((.ok "report for r:0000:a queued", m'), w') ∧
      (m'.drain none).run env w' =
        (.ofCapacity 8, (direct .standard "cli" env report (.ofStore .empty)).2) := by
  intro env report
  have hsize : (message (.filter .list)).body.utf8ByteSize ≤ maxBodySize := by decide +kernel
  have hstatus : Request.readStatus "finished-success" = .ok .finishedSuccess := by cbv
  have hserving : (Mailbox.ofCapacity 8).Serving := ⟨by decide, rfl⟩
  exact ⟨(forwarding_agrees .standard "cli" env (.filter .list) (.ofCapacity 8)
      (.ofStore .empty)).1 trivial hsize,
    (forwarding_agrees .standard "cli" env report (.ofCapacity 8) (.ofStore .empty)).2.2.2
      _ _ _ rfl hstatus hserving⟩

end Api

end StagedRollout
