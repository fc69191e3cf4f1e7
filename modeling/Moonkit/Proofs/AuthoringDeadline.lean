import Moonkit.Proofs.ReportedSlots

/-!
# The authoring deadline

The authoring of a block ends one second before the start of the slot after the last reported one.
It is skipped where less than 400 ms are left for it until then and it would need them.
-/

namespace Moonkit

namespace SlotBased

section Adjust

variable {authoringDuration d : Duration} {nextBlock nextSlotChange : Duration × Slot}

theorem adjust_same_authors (authoringDuration : Duration) (nextBlock nextSlotChange) :
    adjustAuthoringDuration authoringDuration nextBlock nextSlotChange false =
      some (min authoringDuration nextBlock.1) := by
  unfold adjustAuthoringDuration
  simp only [Bool.false_eq_true, false_and, ↓reduceIte]
  split_ifs <;> rfl

theorem untilDeadline_val (d : Duration) :
    (d.saturatingSub blockProductionAdjustmentMs).val = d.val - 1000000000 := rfl

theorem minimumDuration_val :
    (blockProductionMinimumIntervalMs.saturatingSub blockProductionThresholdMs).val = 400000000 :=
  rfl

theorem eq_zero_iff {a : Duration} : a = 0 ↔ a.val = 0 :=
  ⟨fun h => h ▸ rfl, fun h => Uint.ext_val h⟩

theorem adjust_eq_none :
    adjustAuthoringDuration authoringDuration nextBlock nextSlotChange true = none ↔
      nextSlotChange.1.val ≤ 1000000000 ∨
        nextSlotChange.1.val - 1000000000 ≤ authoringDuration.val ∧
          nextSlotChange.1.val - 1000000000 < 400000000 := by
  have hdeadline := untilDeadline_val nextSlotChange.1
  have hminimum := minimumDuration_val
  unfold adjustAuthoringDuration
  simp only [true_and, ↓reduceIte, eq_zero_iff, Uint.le_iff_val, Uint.lt_iff_val]
  split_ifs with hzero hlate hshort
  · simp only [true_iff]
    omega
  · simp only [true_iff]
    omega
  · simp only [false_iff]
    omega
  · simp only [false_iff]
    omega

/-- What is left of the duration ends before the next block and the deadline. -/
theorem adjust_eq_some
    (h : adjustAuthoringDuration authoringDuration nextBlock nextSlotChange true = some d) :
    d ≤ authoringDuration ∧ d ≤ nextBlock.1 ∧ d.val + 1000000000 ≤ nextSlotChange.1.val := by
  have hdeadline := untilDeadline_val nextSlotChange.1
  unfold adjustAuthoringDuration at h
  simp only [true_and, ↓reduceIte, eq_zero_iff, Uint.le_iff_val, Uint.lt_iff_val] at h
  split_ifs at h with hzero hlate hshort <;> obtain rfl := Option.some.inj h
  · simp only [Uint.le_iff_val, Uint.val_min]
    omega
  · simp only [Uint.le_iff_val, Uint.val_min]
    omega

end Adjust

section Timer

variable {overflowChecks : Bool} {timer : SlotTimer} {timeNow timeThen authoringDuration : Duration}

namespace SlotTimer

/-- The start of the slot after the last reported one, in milliseconds after the offset. -/
def nextSlotStart (timer : SlotTimer) : ℕ :=
  ((timer.lastReportedSlot.getD 0).val + 1) * timer.slotDurationMillis.val

/-- The nanoseconds that are left until then. -/
def untilNextSlot (timer : SlotTimer) (timeNow : Duration) : ℕ :=
  timer.nextSlotStart * 1000000 - (timeNow.val - timer.timeOffset.val)

/-- The durations with which an attempt can be computed. -/
def CanAttempt (timer : SlotTimer) : Prop :=
  0 < timer.slotDurationMillis.val ∧
    (0 < timer.relaySlotDuration.asMillis ∨ 0 < assignedCores timer.lastReportedCoreNum)

theorem canAttempt_iff : timer.CanAttempt ↔
    ∃ nextBlock, timer.timeUntilNextBlock timer.slotDurationMillis timeNow = .ok nextBlock := by
  constructor
  · rintro ⟨hP, hdurations⟩
    obtain ⟨interval, hinterval⟩ := exists_interval hP timer.relaySlotDuration
      timer.lastReportedCoreNum
    obtain ⟨w, slot, h⟩ := exists_wakeUp hinterval ((interval_pos_iff hinterval).2 hdurations)
      timeNow timer.timeOffset
    exact ⟨(w, slot), h⟩
  · rintro ⟨⟨w, slot⟩, h⟩
    obtain ⟨interval, hinterval, hi, -⟩ := computeNextWakeUpTime_eq_ok.1 h
    exact ⟨blockProductionInterval_pos hinterval, (interval_pos_iff hinterval).1 hi⟩

theorem timeUntilNextSlotChange_eq (overflowChecks : Bool) (hP : 0 < timer.slotDurationMillis.val)
    (hstart : timer.nextSlotStart < 2 ^ 64) :
    ∃ remaining next,
      timer.timeUntilNextSlotChange overflowChecks timer.slotDurationMillis timeNow =
        .ok (some (remaining, next)) ∧ remaining.val = timer.untilNextSlot timeNow := by
  have hnext : (timer.lastReportedSlot.getD 0).val + 1 < 2 ^ 64 :=
    (Nat.le_mul_of_pos_right _ hP).trans_lt hstart
  have hmul : timer.slotDurationMillis.val * ((timer.lastReportedSlot.getD 0).val + 1)
      ≤ 2 ^ 64 - 1 := by
    rw [Nat.mul_comm]
    exact Nat.le_sub_one_of_lt hstart
  have htimestamp : Slot.timestamp ⟨_, Nat.le_sub_one_of_lt hnext⟩ timer.slotDurationMillis =
      some ⟨_, hmul⟩ := Uint.checkedMul_eq_some.2 rfl
  refine ⟨(Duration.fromMillis ⟨_, hmul⟩).saturatingSub (timeNow.saturatingSub timer.timeOffset),
    ⟨_, Nat.le_sub_one_of_lt hnext⟩, Outcome.bind_eq_ok.2 ⟨_, addSlot_fits hnext, ?_⟩, ?_⟩
  · dsimp only
    rw [htimestamp]
    rfl
  · unfold untilNextSlot nextSlotStart
    rw [Nat.mul_comm _ timer.slotDurationMillis.val]
    rfl

/-- Where the start is representable, the time until then is what the authoring is adjusted to. -/
theorem adjustAuthoringDuration_eq_ok (hstart : timer.nextSlotStart < 2 ^ 64)
    {r : Option Duration} :
    timer.adjustAuthoringDuration overflowChecks timeNow timeThen authoringDuration = .ok r ↔
      ∃ nextBlock remaining next,
        timer.timeUntilNextBlock timer.slotDurationMillis timeNow = .ok nextBlock ∧
        remaining.val = timer.untilNextSlot timeThen ∧
        SlotBased.adjustAuthoringDuration authoringDuration nextBlock (remaining, next) true
          = r := by
  unfold adjustAuthoringDuration
  rw [Outcome.bind_eq_ok]
  constructor
  · rintro ⟨nextBlock, hblock, h⟩
    obtain ⟨remaining, next, hchange, hremaining⟩ :=
      timeUntilNextSlotChange_eq overflowChecks (canAttempt_iff.2 ⟨_, hblock⟩).1 hstart
    obtain ⟨_, hchange', h⟩ := Outcome.bind_eq_ok.1 h
    obtain rfl := Outcome.ok_unique hchange hchange'
    exact ⟨nextBlock, remaining, next, hblock, hremaining, Outcome.ok.inj h⟩
  · rintro ⟨nextBlock, remaining, next, hblock, hremaining, rfl⟩
    obtain ⟨remaining', next', hchange, hremaining'⟩ :=
      timeUntilNextSlotChange_eq overflowChecks (canAttempt_iff.2 ⟨_, hblock⟩).1 hstart
    obtain rfl := Uint.ext_val (hremaining.trans hremaining'.symm)
    exact ⟨nextBlock, hblock, Outcome.bind_eq_ok.2 ⟨_, hchange, rfl⟩⟩

end SlotTimer

/-- **The authoring deadline.** Where the start of the slot after the last reported one is
representable, the authoring is adjusted exactly where an attempt can be computed. What is left of
it ends before the next attempt, and with the clock as it reads then one second before that start.
It is skipped exactly where at most a second is left until then, or the authoring takes until the
deadline and that leaves it less than 400 ms. Where the authors are the same it only ends before
the next block. -/
theorem authoring_ends_before_slot (timer : SlotTimer) (hstart : timer.nextSlotStart < 2 ^ 64)
    (overflowChecks : Bool) (timeNow timeThen authoringDuration : Duration) :
    ((∃ r, timer.adjustAuthoringDuration overflowChecks timeNow timeThen authoringDuration = .ok r)
      ↔ timer.CanAttempt) ∧
    (∀ r, timer.adjustAuthoringDuration overflowChecks timeNow timeThen authoringDuration = .ok r →
      ∃ interval w slot,
        blockProductionInterval timer.slotDurationMillis timer.relaySlotDuration
          timer.lastReportedCoreNum = .ok interval ∧
        timer.timeUntilNextBlock timer.slotDurationMillis timeNow = .ok (w, slot) ∧
        IsLeast {m | interval.asMillis ∣ m ∧ sinceOffset timeNow timer.timeOffset < m}
          (sinceOffset timeNow timer.timeOffset + w.asMillis) ∧
        (∀ d, r = some d → d ≤ authoringDuration ∧ d ≤ w ∧
          timeThen.val - timer.timeOffset.val + d.val + 1000000000
            ≤ timer.nextSlotStart * 1000000) ∧
        (r = none ↔ timer.untilNextSlot timeThen ≤ 1000000000 ∨
          timer.untilNextSlot timeThen - 1000000000 ≤ authoringDuration.val ∧
            timer.untilNextSlot timeThen - 1000000000 < 400000000)) ∧
    ∀ authoringDuration nextBlock nextSlotChange,
      adjustAuthoringDuration authoringDuration nextBlock nextSlotChange false =
        some (min authoringDuration nextBlock.1) := by
  refine ⟨⟨?_, fun hcan => ?_⟩, fun r hr => ?_, adjust_same_authors⟩
  · rintro ⟨r, hr⟩
    obtain ⟨nextBlock, -, -, hblock, -⟩ := (SlotTimer.adjustAuthoringDuration_eq_ok hstart).1 hr
    exact SlotTimer.canAttempt_iff.2 ⟨nextBlock, hblock⟩
  · obtain ⟨nextBlock, hblock⟩ := SlotTimer.canAttempt_iff.1 hcan
    obtain ⟨remaining, next, -, hremaining⟩ :=
      SlotTimer.timeUntilNextSlotChange_eq overflowChecks hcan.1 hstart
    exact ⟨_, (SlotTimer.adjustAuthoringDuration_eq_ok hstart).2
      ⟨nextBlock, remaining, next, hblock, hremaining, rfl⟩⟩
  · obtain ⟨⟨w, slot⟩, remaining, next, hblock, hremaining, rfl⟩ :=
      (SlotTimer.adjustAuthoringDuration_eq_ok hstart).1 hr
    obtain ⟨interval, hinterval, -⟩ := computeNextWakeUpTime_eq_ok.1 hblock
    refine ⟨interval, w, slot, hinterval, hblock, (wakeUp_isLeast hinterval hblock).2.2,
      fun d hd => ?_, ?_⟩
    · obtain ⟨hauthoring, hw, hdeadline⟩ := adjust_eq_some hd
      refine ⟨hauthoring, hw, ?_⟩
      unfold SlotTimer.untilNextSlot at hremaining
      simp only at hdeadline
      omega
    · rw [adjust_eq_none, hremaining]

/-- A timer with slots of 6 s that has reported slot 3. -/
def testTimer : SlotTimer :=
  { SlotTimer.newWithOffset 0 (millis 6000) none with lastReportedSlot := some (.lit 3) }

/-- 1.45 s before slot 4, 450 ms are left of 2 s. -/
theorem authoring_ends_before_slot_test :
    (millis 22550).val - testTimer.timeOffset.val + (millis 450).val + 1000000000
      ≤ testTimer.nextSlotStart * 1000000 := by
  obtain ⟨-, hadjust, -⟩ := authoring_ends_before_slot testTimer (by decide) true
    (millis 22550) (millis 22550) (millis 2000)
  obtain ⟨_, _, _, -, -, -, hsome, -⟩ := hadjust (some (millis 450)) (by decide)
  exact (hsome _ rfl).2.2

/-- Slots of no duration: nothing is left until the next one, but there is no attempt to compute. -/
theorem zero_slot_duration_panics :
    (SlotTimer.newWithOffset 0 (millis 6000) (some 0)).nextSlotStart < 2 ^ 64 ∧
      (SlotTimer.newWithOffset 0 (millis 6000) (some 0)).untilNextSlot 0 ≤ 1000000000 ∧
      (SlotTimer.newWithOffset 0 (millis 6000) (some 0)).adjustAuthoringDuration true 0 0 0 =
        .panic "attempt to divide by zero" := by
  decide

end Timer

end SlotBased

end Moonkit
