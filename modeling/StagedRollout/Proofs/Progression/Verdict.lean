/-
# Counters and verdicts

A report takes one action that has not ended from one counter of its group to another.  The number
of actions stays as it is, the actions that ended well and those that failed become no fewer, and
where no action is pending nothing changes any more (`StatusCounts.Progresses`).  So a condition
that was met stays met, which is what a verdict rests on: over any number of reports a verdict only
ever gets more definite (`StatusCounts.verdict_monotone`).
-/
import Mathlib
import StagedRollout.Rollout.Verdict

namespace StagedRollout

lemma ActionStatus.isTerminal_of_isOpen {status : ActionStatus} (h : status.isOpen = true) :
    status.isTerminal = false := by
  cases status <;> simp_all [isOpen, isTerminal]

namespace StatusCounts

variable {c c' c'' : StatusCounts} {source dest : ActionStatus}

/-! ## Moves between counters -/

lemma get_move (c : StatusCounts) (source dest status : ActionStatus) :
    (c.move source dest).get status =
      if source = dest then c.get status
      else c.get status - (if status = source then 1 else 0) + if status = dest then 1 else 0 := by
  unfold move
  split
  · rfl
  · rw [get_increment, get_decrement]

lemma total_increment (c : StatusCounts) (status : ActionStatus) :
    (c.increment status).total = c.total + 1 := by
  cases status <;> simp only [increment, modify, total] <;> omega

lemma total_decrement {status : ActionStatus} (h : 0 < c.get status) :
    (c.decrement status).total + 1 = c.total := by
  cases status <;> simp only [get] at h <;> simp only [decrement, modify, total] <;> omega

/-- An action that has not ended is pending. -/
lemma get_le_pending {status : ActionStatus} (h : status.isTerminal = false) :
    c.get status ≤ c.pending := by
  cases status <;> simp [ActionStatus.isTerminal] at h <;> simp only [get, pending] <;> omega

/-- What becomes of counters while devices report. -/
structure Progresses (c c' : StatusCounts) : Prop where
  total : c'.total = c.total
  success : c.finishedSuccess ≤ c'.finishedSuccess
  error : c.finishedError ≤ c'.finishedError
  still : c.pending = 0 → c' = c

namespace Progresses

lemma refl (c : StatusCounts) : Progresses c c := ⟨rfl, Nat.le_refl _, Nat.le_refl _, fun _ => rfl⟩

lemma trans (h : Progresses c c') (h' : Progresses c' c'') : Progresses c c'' where
  total := h'.total.trans h.total
  success := h.success.trans h'.success
  error := h.error.trans h'.error
  still hnone := by
    have hsame := h.still hnone
    rw [hsame] at h'
    exact h'.still hnone

/-- An action that has not ended may get any status. -/
lemma move (hopen : source.isTerminal = false) (hpos : 0 < c.get source) (dest : ActionStatus) :
    Progresses c (c.move source dest) := by
  by_cases hsame : source = dest
  · rw [StatusCounts.move, if_pos hsame]
    exact refl c
  -- a terminal counter only takes actions in
  have hgrows : ∀ status : ActionStatus, status.isTerminal = true →
      c.get status ≤ (c.move source dest).get status := by
    intro status hended
    have hne : status ≠ source := fun heq => by simp [heq, hopen] at hended
    rw [get_move, if_neg hsame, if_neg hne]
    omega
  refine ⟨?_, hgrows .finishedSuccess rfl, hgrows .finishedError rfl, fun hnone => ?_⟩
  · have hdrop := total_decrement hpos
    rw [StatusCounts.move, if_neg hsame, total_increment]
    omega
  · have hle := get_le_pending (c := c) hopen
    omega

end Progresses

/-! ## Reports -/

/-- What a report does to counters: an action that has not ended gets some status. -/
inductive Reported : StatusCounts → StatusCounts → Prop
  | move {c : StatusCounts} (source dest : ActionStatus) (hopen : source.isTerminal = false)
      (hsome : 0 < c.get source) : Reported c (c.move source dest)

lemma Reported.progresses (h : Reported c c') : Progresses c c' := by
  obtain ⟨source, dest, hopen, hsome⟩ := h
  exact .move hopen hsome dest

/-- What one report leaves of the counters, any number of reports leave. -/
lemma progresses_of_reports (h : Relation.ReflTransGen Reported c c') : Progresses c c' := by
  induction h with
  | refl => exact .refl c
  | tail _ hlast ih => exact ih.trans hlast.progresses

/-- There is something to report exactly as long as an action is pending. -/
lemma exists_reported_iff : (∃ c', Reported c c') ↔ 0 < c.pending := by
  constructor
  · rintro ⟨-, source, dest, hopen, hsome⟩
    exact Nat.lt_of_lt_of_le hsome (get_le_pending hopen)
  · intro hpending
    have hcases : 0 < c.created ∨ 0 < c.running ∨ 0 < c.download ∨ 0 < c.canceling := by
      unfold pending at hpending
      omega
    rcases hcases with hsome | hsome | hsome | hsome
    · exact ⟨_, .move .created .running rfl hsome⟩
    · exact ⟨_, .move .running .download rfl hsome⟩
    · exact ⟨_, .move .download .running rfl hsome⟩
    · exact ⟨_, .move .canceling .canceled rfl hsome⟩

lemma get_le_total (c : StatusCounts) (status : ActionStatus) : c.get status ≤ c.total := by
  cases status <;> simp only [get, total] <;> omega

end StatusCounts

/-! ## Conditions and verdicts -/

lemma Condition.isMet_mono {condition : Condition} {n m total : Nat} (h : n ≤ m)
    (hmet : condition.isMet n total = true) : condition.isMet m total = true := by
  cases condition with
  | threshold percent =>
    simp only [isMet, decide_eq_true_eq] at hmet ⊢
    omega
  | count required =>
    simp only [isMet, decide_eq_true_eq] at hmet ⊢
    omega

lemma errorMet_mono {error : Option Condition} {n m total : Nat} (h : n ≤ m)
    (hmet : errorMet error n total = true) : errorMet error m total = true := by
  cases error with
  | none => cases hmet
  | some condition =>
    simp only [errorMet, Bool.and_eq_true, decide_eq_true_eq] at hmet ⊢
    exact ⟨Nat.lt_of_lt_of_le hmet.1 h, condition.isMet_mono h hmet.2⟩

lemma errorMet_eq_true {error : Option Condition} {failed total : Nat} :
    errorMet error failed total = true ↔
      ∃ condition, error = some condition ∧ 0 < failed ∧ condition.isMet failed total = true := by
  cases error <;> simp [errorMet]

namespace StatusCounts

variable {c : StatusCounts} {success : Condition} {error : Option Condition}

lemma of_verdict_succeeded (h : c.verdict success error = .succeeded) :
    c.total = 0 ∨ success.isMet c.finishedSuccess c.total = true := by
  unfold verdict at h
  split_ifs at h with hempty herror hmet
  · exact .inl hempty
  · exact .inr hmet

lemma of_verdict_degraded (h : c.verdict success error = .degraded) :
    c.pending = 0 ∧ success.isMet c.finishedSuccess c.total = false ∧
      errorMet error c.finishedError c.total = false := by
  unfold verdict at h
  split_ifs at h with hempty herror hmet hnone
  exact ⟨hnone, Bool.not_eq_true _ ▸ hmet, Bool.not_eq_true _ ▸ herror⟩

lemma of_verdict_failed (h : c.verdict success error = .failed) :
    errorMet error c.finishedError c.total = true := by
  unfold verdict at h
  split_ifs at h with hempty herror
  exact herror

lemma verdict_of_errorMet (hpos : 0 < c.total)
    (herror : errorMet error c.finishedError c.total = true) :
    c.verdict success error = .failed := by
  rw [verdict, if_neg (Nat.ne_of_gt hpos), if_pos herror]

/-- Counters that meet the success condition are ahead of any waiting. -/
lemma verdict_of_isMet (hpos : 0 < c.total)
    (hmet : success.isMet c.finishedSuccess c.total = true) :
    c.verdict success error = .succeeded ∨ c.verdict success error = .failed := by
  rw [verdict, if_neg (Nat.ne_of_gt hpos)]
  split_ifs
  · exact .inr rfl
  · exact .inl rfl

lemma pending_pos_of_verdict (h : c.verdict success error = .pending) : 0 < c.pending := by
  unfold verdict at h
  split_ifs at h with hempty herror hmet hnone
  exact Nat.pos_of_ne_zero hnone

/-- **Verdicts are monotone under reports.**  However many reports come in, all actions stay
counted: a failure stays a failure, behind a success there is a success or a failure, a degraded
group has nothing left to report, and only pending actions keep a verdict pending. -/
theorem verdict_monotone {c c' : StatusCounts} (hpos : 0 < c.total)
    (hreports : Relation.ReflTransGen Reported c c') (success : Condition)
    (error : Option Condition) :
    (c'.total = c.total ∧ ∀ status, c'.get status ≤ c.total) ∧
    (c.verdict success error = .failed → c'.verdict success error = .failed) ∧
    (c.verdict success error = .degraded → ¬ ∃ d, Reported c d) ∧
    (c.verdict success error = .succeeded →
      c'.verdict success error = .succeeded ∨ c'.verdict success error = .failed) ∧
    (c'.pending = 0 → c'.verdict success error ≠ .pending) := by
  have hprogress := progresses_of_reports hreports
  have hpos' : 0 < c'.total := hprogress.total ▸ hpos
  refine ⟨⟨hprogress.total, fun status => hprogress.total ▸ c'.get_le_total status⟩,
    fun hfailed => ?_, fun hdegraded => ?_, fun hsucceeded => ?_, fun hnone hverdict => ?_⟩
  · have herror := errorMet_mono hprogress.error (of_verdict_failed hfailed)
    exact verdict_of_errorMet hpos' (hprogress.total ▸ herror)
  · rw [exists_reported_iff]
    exact Nat.not_lt.2 (Nat.le_of_eq (of_verdict_degraded hdegraded).1)
  · rcases of_verdict_succeeded hsucceeded with hempty | hmet
    · exact absurd hempty (Nat.ne_of_gt hpos)
    · have hmet' := Condition.isMet_mono hprogress.success hmet
      exact verdict_of_isMet hpos' (hprogress.total ▸ hmet')
  · exact Nat.ne_of_gt (pending_pos_of_verdict hverdict) hnone

/-- Half of the actions have ended well when the other half goes wrong: the success does not
last. -/
theorem verdict_monotone_halfFailed :
    let before : StatusCounts := ⟨0, 1, 0, 0, 0, 1, 0⟩
    let later : StatusCounts := ⟨0, 0, 0, 0, 0, 1, 1⟩
    0 < before.total ∧ Relation.ReflTransGen Reported before later ∧
      before.verdict (.threshold 50) (some (.count 1)) = .succeeded ∧
      later.verdict (.threshold 50) (some (.count 1)) = .failed ∧
      (later.verdict (.threshold 50) (some (.count 1)) = .succeeded ∨
        later.verdict (.threshold 50) (some (.count 1)) = .failed) := by
  have hreport : Reported ⟨0, 1, 0, 0, 0, 1, 0⟩ ⟨0, 0, 0, 0, 0, 1, 1⟩ :=
    .move .running .finishedError rfl (by decide)
  exact ⟨by decide, .single hreport, rfl, rfl,
    (verdict_monotone (by decide) (.single hreport) (.threshold 50) (some (.count 1))).2.2.2.1 rfl⟩

end StatusCounts

end StagedRollout
