import MessageBroker.Storage.Saver

/-! A schedule that is checked again and again. Times that stop at the last one
are as good as exact sums, and saves are attempted more than an interval apart,
however the clock goes and whatever becomes of the saves. -/

namespace MessageBroker

namespace Schedule

theorem toNat_millisOf (secs : UInt64) :
    (millisOf secs).toNat = min (secs.toNat * 1000) (UInt64.size - 1) := by
  have hfits : min (secs.toNat * 1000) (UInt64.size - 1) < UInt64.size :=
    Nat.lt_of_le_of_lt (Nat.min_le_right _ _) (by decide)
  exact UInt64.toNat_ofNat_of_lt' hfits

theorem isEnabled_start_iff (intervalSecs : UInt64) (last : Timestamp) :
    (start intervalSecs last).isEnabled = true ↔ intervalSecs ≠ 0 := by
  have hmillis := toNat_millisOf intervalSecs
  have hzero : intervalSecs = 0 ↔ intervalSecs.toNat = 0 :=
    UInt64.toNat_inj.symm
  have hnone : millisOf intervalSecs = 0 ↔ (millisOf intervalSecs).toNat = 0 :=
    UInt64.toNat_inj.symm
  have hsize : UInt64.size = 18446744073709551616 := rfl
  simp only [isEnabled, start, bne_iff_ne, ne_eq, hzero, hnone]
  omega

/-- Where a sum is cut off at the last point in time, no time lies beyond it, and
none lies beyond the exact sum either. -/
theorem isDue_start_iff (intervalSecs : UInt64) (last now : Timestamp) :
    (start intervalSecs last).isDue now = true ↔
      intervalSecs ≠ 0 ∧
        last.toNat + intervalSecs.toNat * 1000 < now.toNat := by
  have henabled := isEnabled_start_iff intervalSecs last
  have hnow := now.toNat_lt
  unfold isDue nextDue?
  split
  · rename_i hinterval
    have hdue : (start intervalSecs last).lastSave.after
          (start intervalSecs last).intervalMillis < now ↔
        last.toNat + intervalSecs.toNat * 1000 < now.toNat := by
      rw [Timestamp.lt_iff, Timestamp.toNat_after]
      simp only [start, toNat_millisOf]
      omega
    simp only [Option.any_some, decide_eq_true_eq, hdue,
      henabled.mp hinterval, ne_eq, not_false_eq_true, true_and]
  · rename_i hinterval
    simp only [Option.any_none, Bool.false_eq_true, false_iff, not_and]
    exact fun hne => absurd (henabled.mpr hne) hinterval

end Schedule

namespace Saver

/-- What happens to a saver in the course of time. Between two checks anything
may become of it: its save ends or goes on, another one is started, or what the
next one needs is missing. -/
inductive Event where
  | check (now : Timestamp) (capture : Unit → Snapshot)
  | other (change : Saver → Saver)

/-- A check of the schedule, and what there is when it is made. -/
structure Check where
  saver : Saver
  schedule : Schedule
  now : Timestamp
  capture : Unit → Snapshot

namespace Check

def outcome (check : Check) : Attempt :=
  check.saver.saveIfDue check.schedule check.now check.capture

def attempts (check : Check) : Bool :=
  match check.outcome.result with
  | .ok false => false
  | _ => true

end Check

def checks : Saver → Schedule → List Event → List Check
  | _, _, [] => []
  | saver, schedule, .check now capture :: rest =>
      let check : Check := ⟨saver, schedule, now, capture⟩
      check :: check.outcome.saver.checks check.outcome.schedule rest
  | saver, schedule, .other change :: rest =>
      (change saver).checks schedule rest

def attemptTimes (checks : List Check) : List Timestamp :=
  (checks.filter Check.attempts).map Check.now

/-- When the last attempt was made, or the start if there was none. -/
def lastAttempt (start : Timestamp) (checks : List Check) : Timestamp :=
  (attemptTimes checks).getLastD start

/-- What is known of a check that follows an attempt at this time. -/
structure Check.Follows (check : Check) (intervalSecs : UInt64)
    (last : Timestamp) : Prop where
  attempts_iff : check.attempts = true ↔
    intervalSecs ≠ 0 ∧
      last.toNat + intervalSecs.toNat * 1000 < check.now.toNat ∧
      check.saver.isRunning = false
  idle : check.attempts = false →
    check.outcome.schedule = check.schedule ∧
      check.outcome.saver = check.saver ∧ check.outcome.result = .ok false
  captured_iff : check.outcome.captured = true ↔ check.attempts = true
  started : check.attempts = true →
    (check.outcome.result, check.outcome.saver) =
      ((check.saver.start (check.capture ())).1.map fun _ => true,
        (check.saver.start (check.capture ())).2)
  marked : check.attempts = true →
    check.outcome.schedule = .start intervalSecs check.now
  /-- A start that fails is an attempt too. -/
  failed : ∀ failure, check.outcome.result = .error failure →
    check.attempts = true

variable {saver : Saver} {schedule : Schedule} {now last : Timestamp}
  {capture : Unit → Snapshot} {intervalSecs : UInt64}

theorem saveIfDue_of_idle
    (h : ¬(schedule.isDue now = true ∧ saver.isRunning = false)) :
    saver.saveIfDue schedule now capture = ⟨saver, schedule, .ok false, false⟩ := by
  have hidle : (!schedule.isDue now || saver.isRunning) = true := by
    cases hdue : schedule.isDue now <;> cases hrunning : saver.isRunning <;>
      simp_all
  unfold saveIfDue
  rw [if_pos hidle]

theorem saveIfDue_of_due (hdue : schedule.isDue now = true)
    (hrunning : saver.isRunning = false) :
    saver.saveIfDue schedule now capture = {
      saver := (saver.start (capture ())).2
      schedule := schedule.markSaved now
      result := (saver.start (capture ())).1.map fun _ => true
      captured := true } := by
  unfold saveIfDue
  rw [hdue, hrunning]
  rfl

namespace Check

variable {check : Check}

theorem attempts_of_idle
    (h : ¬(check.schedule.isDue check.now = true ∧
      check.saver.isRunning = false)) : check.attempts = false := by
  unfold attempts outcome
  rw [saveIfDue_of_idle h]

theorem attempts_of_due (hdue : check.schedule.isDue check.now = true)
    (hrunning : check.saver.isRunning = false) : check.attempts = true := by
  unfold attempts outcome
  rw [saveIfDue_of_due hdue hrunning]
  cases (check.saver.start (check.capture ())).1 <;> rfl

theorem attempts_eq_true_iff :
    check.attempts = true ↔
      check.schedule.isDue check.now = true ∧
        check.saver.isRunning = false := by
  refine ⟨fun hattempts => ?_, fun h => attempts_of_due h.1 h.2⟩
  refine Decidable.byContradiction fun hidle => ?_
  rw [attempts_of_idle hidle] at hattempts
  cases hattempts

theorem outcome_of_idle (h : check.attempts = false) :
    check.outcome = ⟨check.saver, check.schedule, .ok false, false⟩ := by
  refine saveIfDue_of_idle fun hdue => ?_
  rw [attempts_eq_true_iff.mpr hdue] at h
  cases h

theorem outcome_of_attempts (h : check.attempts = true) :
    check.outcome = {
      saver := (check.saver.start (check.capture ())).2
      schedule := check.schedule.markSaved check.now
      result := (check.saver.start (check.capture ())).1.map fun _ => true
      captured := true } := by
  obtain ⟨hdue, hrunning⟩ := attempts_eq_true_iff.mp h
  exact saveIfDue_of_due hdue hrunning

theorem schedule_outcome (hschedule : check.schedule = .start intervalSecs last) :
    check.outcome.schedule = .start intervalSecs
      (if check.attempts then check.now else last) := by
  cases h : check.attempts with
  | false => rw [outcome_of_idle h, hschedule, if_neg Bool.false_ne_true]
  | true =>
      rw [outcome_of_attempts h, hschedule, if_pos rfl]
      rfl

theorem follows (hschedule : check.schedule = .start intervalSecs last) :
    check.Follows intervalSecs last where
  attempts_iff := by
    rw [attempts_eq_true_iff, hschedule, Schedule.isDue_start_iff, and_assoc]
  idle h := by
    rw [outcome_of_idle h]
    exact ⟨rfl, rfl, rfl⟩
  captured_iff := by
    cases h : check.attempts with
    | false => simp [outcome_of_idle h]
    | true => simp [outcome_of_attempts h]
  started h := by rw [outcome_of_attempts h]
  marked h := by rw [schedule_outcome hschedule, if_pos h]
  failed failure hresult := by
    unfold attempts
    rw [hresult]

end Check

theorem attemptTimes_cons (check : Check) (rest : List Check) :
    attemptTimes (check :: rest) =
      (if check.attempts then [check.now] else []) ++ attemptTimes rest := by
  unfold attemptTimes
  cases h : check.attempts <;> simp [h]

theorem lastAttempt_cons (start : Timestamp) (check : Check)
    (rest : List Check) :
    lastAttempt start (check :: rest) =
      lastAttempt (if check.attempts then check.now else start) rest := by
  unfold lastAttempt
  rw [attemptTimes_cons]
  cases check.attempts with
  | false => rfl
  | true => exact List.getLastD_cons ..

theorem follows_of_mem_checks (start : Timestamp) (events : List Event)
    {before after : List Check} {check : Check}
    (hchecks : saver.checks (.start intervalSecs start) events =
      before ++ check :: after) :
    check.Follows intervalSecs (lastAttempt start before) := by
  induction events generalizing saver start before with
  | nil => simp [checks] at hchecks
  | cons event rest ih =>
      cases event with
      | other change => exact ih start hchecks
      | check now capture =>
          rw [checks, Check.schedule_outcome rfl] at hchecks
          cases before with
          | nil =>
              obtain ⟨rfl, -⟩ := List.cons.inj hchecks
              exact Check.follows rfl
          | cons first before =>
              obtain ⟨rfl, hrest⟩ := List.cons.inj hchecks
              rw [lastAttempt_cons]
              exact ih _ hrest

/-- This time lies more than an interval after that one. -/
def Apart (intervalSecs : UInt64) (earlier later : Timestamp) : Prop :=
  earlier.toNat + intervalSecs.toNat * 1000 < later.toNat

theorem pairwise_cons_apart {times : List Timestamp}
    (hfirst : Apart intervalSecs last now)
    (htimes : (now :: times).Pairwise (Apart intervalSecs)) :
    (last :: now :: times).Pairwise (Apart intervalSecs) := by
  refine List.pairwise_cons.mpr ⟨fun later hlater => ?_, htimes⟩
  rcases List.mem_cons.mp hlater with rfl | hlater
  · exact hfirst
  · have hnext : Apart intervalSecs now later :=
      (List.pairwise_cons.mp htimes).1 later hlater
    unfold Apart at hfirst hnext ⊢
    omega

theorem pairwise_attemptTimes (saver : Saver) (intervalSecs : UInt64)
    (start : Timestamp) (events : List Event) :
    (start :: attemptTimes (saver.checks (.start intervalSecs start) events)).Pairwise
      (Apart intervalSecs) := by
  induction events generalizing saver start with
  | nil => exact List.pairwise_singleton _ _
  | cons event rest ih =>
      cases event with
      | other change => exact ih _ start
      | check now capture =>
          rw [checks, attemptTimes_cons, Check.schedule_outcome rfl]
          have hfollows : Check.Follows
              ⟨saver, .start intervalSecs start, now, capture⟩ intervalSecs start :=
            Check.follows rfl
          cases hattempts : Check.attempts ⟨saver, _, now, capture⟩ with
          | false => exact ih _ start
          | true =>
              obtain ⟨-, hapart, -⟩ := hfollows.attempts_iff.mp hattempts
              exact pairwise_cons_apart hapart (ih _ now)

/-- A save is attempted at a check if and only if the check is made more than an
interval after the last attempt, in exact numbers, and no save is running. So any
two attempts are more than an interval apart, and the first one is from the start,
also where the clock goes backwards. -/
theorem attempts_spaced (saver : Saver) (intervalSecs : UInt64)
    (start : Timestamp) (events : List Event) :
    (∀ before check after,
      saver.checks (.start intervalSecs start) events =
          before ++ check :: after →
        check.Follows intervalSecs (lastAttempt start before)) ∧
      (start :: attemptTimes
        (saver.checks (.start intervalSecs start) events)).Pairwise
        (Apart intervalSecs) :=
  ⟨fun _ _ _ => follows_of_mem_checks start events,
    pairwise_attemptTimes saver intervalSecs start events⟩

/-- A save that is still running when the next one is due, and one that cannot be
started because the path is locked. By then the clock has gone backwards. -/
theorem attempts_spaced_backwards :
    let snapshot : Unit → Snapshot := fun _ => ⟨⟨42⟩, [], [], []⟩
    let checks := (create "store" .none).checks (.start 10 ⟨0⟩) [
      .check ⟨10000⟩ snapshot, .check ⟨10001⟩ snapshot, .check ⟨30000⟩ snapshot,
      .other settle, .other seize, .check ⟨20002⟩ snapshot,
      .other release, .check ⟨30000⟩ snapshot]
    (∃ before check after, checks = before ++ check :: after ∧
      check.now = ⟨20002⟩ ∧
      check.outcome.result.isOk = false ∧
      lastAttempt ⟨0⟩ before = ⟨10001⟩ ∧
      check.Follows 10 (lastAttempt ⟨0⟩ before)) ∧
    attemptTimes checks = [⟨10001⟩, ⟨20002⟩] ∧
    [⟨0⟩, ⟨10001⟩, ⟨20002⟩].Pairwise (Apart 10) := by
  intro snapshot checks
  obtain ⟨hfollows, hapart⟩ := attempts_spaced (create "store" .none) 10 ⟨0⟩ [
    .check ⟨10000⟩ snapshot, .check ⟨10001⟩ snapshot, .check ⟨30000⟩ snapshot,
    .other settle, .other seize, .check ⟨20002⟩ snapshot,
    .other release, .check ⟨30000⟩ snapshot]
  have htimes : attemptTimes checks = [⟨10001⟩, ⟨20002⟩] := by decide +kernel
  refine ⟨⟨checks.take 3, _, checks.drop 4, rfl, rfl, ?_, ?_, ?_⟩, htimes, ?_⟩
  · decide +kernel
  · decide +kernel
  · exact hfollows _ _ _ rfl
  · rw [← htimes]
    exact hapart

end Saver

end MessageBroker
