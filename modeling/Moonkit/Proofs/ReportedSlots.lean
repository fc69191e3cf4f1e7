import Moonkit.Proofs.ProductionInstants

/-!
# Reported slots

Along a run of the timer the start of the last reported slot is never later than the time since the
offset. So the slot computed from the clock is never below it, and the reported slots go up: by one
at most, except where the computed slot is more than three ahead.
-/

namespace Moonkit

namespace SlotBased

section Step

variable {overflowChecks : Bool} {timer timer' : SlotTimer} {timeNow : Duration}
  {slept : Option Duration} {ls nextParaSlot : Slot}

theorem addSlot_fits {n : U64} (h : ls.val + n.val < 2 ^ 64) :
    addSlot overflowChecks ls n = .ok ⟨ls.val + n.val, Nat.le_sub_one_of_lt h⟩ := by
  have hadd : ls.checkedAdd n = some ⟨ls.val + n.val, Nat.le_sub_one_of_lt h⟩ :=
    Uint.checkedAdd_eq_some.2 rfl
  unfold addSlot
  rw [hadd]
  rfl

namespace SlotTimer

/-- Where three slots more are representable, the next slot is caught up on when the computed one is
two or three ahead. -/
theorem catchUp_fits (h : ls.val + 3 < 2 ^ 64) :
    catchUp overflowChecks (some ls) nextParaSlot =
      .ok (if ls.val + 1 < nextParaSlot.val ∧ nextParaSlot.val ≤ ls.val + 3 then
        some ⟨ls.val + 1, by omega⟩ else none) := by
  have hone : addSlot overflowChecks ls (.lit 1) = .ok ⟨ls.val + 1, by omega⟩ :=
    addSlot_fits (by simp only; omega)
  have hthree : addSlot overflowChecks ls (.lit 3) = .ok ⟨ls.val + 3, by omega⟩ := addSlot_fits h
  refine Outcome.bind_eq_ok.2 ⟨_, hone, ?_⟩
  by_cases hlt : ls.val + 1 < nextParaSlot.val
  · refine (if_pos (Uint.lt_iff_val.2 hlt)).trans (Outcome.bind_eq_ok.2 ⟨_, hthree, ?_⟩)
    simp only [hlt, true_and, Uint.le_iff_val]
    rfl
  · refine (if_neg fun h => hlt (Uint.lt_iff_val.1 h)).trans ?_
    simp only [hlt, false_and, ↓reduceIte]
    rfl

/-- A wait reports the next slot at once, or sleeps and reports the computed slot. -/
theorem waitUntilNextSlot_eq_ok :
    waitUntilNextSlot overflowChecks timeNow timer = (.ok slept, timer') ↔
      ∃ w computed, timer.timeUntilNextBlock timer.slotDurationMillis timeNow = .ok (w, computed) ∧
        ((∃ successor, catchUp overflowChecks timer.lastReportedSlot computed = .ok (some successor)
            ∧ slept = none ∧ timer' = { timer with lastReportedSlot := some successor }) ∨
          catchUp overflowChecks timer.lastReportedSlot computed = .ok none ∧ slept = some w ∧
            timer' = { timer with lastReportedSlot := some computed }) := by
  unfold waitUntilNextSlot
  rw [Call.get_bind, Call.lift_bind_eq_ok, Prod.exists]
  refine exists₂_congr fun w computed => and_congr_right fun _ => ?_
  show (Call.lift _ >>= _) timer = _ ↔ _
  rw [Call.lift_bind_eq_ok]
  constructor
  · rintro ⟨_ | successor, hcatch, h⟩
    · simp only [report, Call.modify_bind, Call.pure_apply, Prod.mk.injEq, Outcome.ok.injEq] at h
      exact .inr ⟨hcatch, h.1.symm, h.2.symm⟩
    · simp only [report, Call.modify_bind, Call.pure_apply, Prod.mk.injEq, Outcome.ok.injEq] at h
      exact .inl ⟨successor, hcatch, h.1.symm, h.2.symm⟩
  · rintro (⟨successor, hcatch, rfl, rfl⟩ | ⟨hcatch, rfl, rfl⟩)
    · exact ⟨_, hcatch, rfl⟩
    · exact ⟨_, hcatch, rfl⟩

/-- The instant computed by the operation is representable, and so are the three slots after the
computed one. -/
def Representable (timer : SlotTimer) : Op → Prop
  | .waitUntilNextSlot timeNow =>
    InRange timer.slotDurationMillis timer.relaySlotDuration timer.lastReportedCoreNum timeNow
        timer.timeOffset ∧
      ∀ answer, timer.timeUntilNextBlock timer.slotDurationMillis timeNow = .ok answer →
        answer.2.val + 3 < 2 ^ 64
  | .updateScheduling _ => True

/-- The start of the last reported slot is not later than `elapsed` ms after the offset. -/
def Behind (timer : SlotTimer) (elapsed : ℕ) : Prop :=
  ∀ ls, timer.lastReportedSlot = some ls → ls.val * timer.slotDurationMillis.val ≤ elapsed

/-- A wait that ends without an answer leaves the timer as it is. -/
theorem waitUntilNextSlot_cases (overflowChecks : Bool) (timeNow : Duration) (timer : SlotTimer) :
    (∃ slept timer', waitUntilNextSlot overflowChecks timeNow timer = (.ok slept, timer')) ∨
      ∃ m, waitUntilNextSlot overflowChecks timeNow timer = (.panic m, timer) := by
  rcases hcompute : timer.timeUntilNextBlock timer.slotDurationMillis timeNow
    with ⟨w, computed⟩ | e | m
  · rcases hcatch : catchUp overflowChecks timer.lastReportedSlot computed with successor | e | m
    · rcases successor with _ | successor
      · exact .inl ⟨_, _, waitUntilNextSlot_eq_ok.2
          ⟨w, computed, hcompute, .inr ⟨hcatch, rfl, rfl⟩⟩⟩
      · exact .inl ⟨_, _, waitUntilNextSlot_eq_ok.2
          ⟨w, computed, hcompute, .inl ⟨successor, hcatch, rfl, rfl⟩⟩⟩
    · exact e.elim
    · refine .inr ⟨m, ?_⟩
      unfold waitUntilNextSlot
      rw [Call.get_bind, hcompute]
      show (Call.lift (catchUp overflowChecks timer.lastReportedSlot computed) >>= _) timer = _
      rw [hcatch]
      rfl
  · exact e.elim
  · refine .inr ⟨m, ?_⟩
    unfold waitUntilNextSlot
    rw [Call.get_bind, hcompute]
    rfl

end SlotTimer

open SlotTimer

/-- The computed slot is that of the clock or the one after it. -/
theorem computed_bounds {P : SlotDuration} {R w timeOffset : Duration} {cores : Option U32}
    {computed : Slot} (hR : 500 ≤ R.asMillis) (hrange : InRange P R cores timeNow timeOffset)
    (h : computeNextWakeUpTime P R cores timeNow timeOffset = .ok (w, computed)) :
    sinceOffset timeNow timeOffset / P.val ≤ computed.val ∧
      computed.val ≤ sinceOffset timeNow timeOffset / P.val + 1 ∧
      computed.val * P.val ≤ sinceOffset timeNow timeOffset + w.asMillis := by
  obtain ⟨interval, hinterval, -⟩ := computeNextWakeUpTime_eq_ok.1 h
  have hP := blockProductionInterval_pos hinterval
  obtain ⟨-, -, hinstant⟩ := wakeUp_wait hinterval h
  have hslot := wakeUp_slot hinterval hrange h
  have hle := Multiples.next_le_add interval.asMillis (sinceOffset timeNow timeOffset)
  have hslot_le := interval_le_slot hinterval hR
  rw [hslot]
  refine ⟨Nat.div_le_div_right (Nat.le_add_right _ _), ?_, Nat.div_mul_le_self _ _⟩
  rw [← Nat.add_div_right _ hP]
  exact Nat.div_le_div_right (by omega)

/-- A wait that computes the slot `computed` reports `slot`. -/
structure Reports (timer : SlotTimer) (slept : Option Duration) (computed slot : Slot) : Prop where
  awake : slept = none → ∃ ls, timer.lastReportedSlot = some ls ∧ slot.val = ls.val + 1 ∧
    slot < computed
  asleep : slept ≠ none → slot = computed
  advance : ∀ ls, timer.lastReportedSlot = some ls →
    slot = ls ∨ slot.val = ls.val + 1 ∨ slot = computed ∧ ls.val + 3 < slot.val

namespace Reports

variable {computed slot : Slot} {w : Duration}

theorem le (h : Reports timer slept computed slot) (hls : timer.lastReportedSlot = some ls) :
    ls ≤ slot := by
  rw [Uint.le_iff_val]
  rcases h.advance ls hls with rfl | hnext | ⟨-, hjump⟩
  · exact le_rfl
  · omega
  · omega

theorem first (hlast : timer.lastReportedSlot = none) :
    Reports timer (some w) computed computed where
  awake := by simp
  asleep _ := rfl
  advance := by simp [hlast]

theorem successor (hlast : timer.lastReportedSlot = some ls) (hslot : slot.val = ls.val + 1)
    (hlt : slot < computed) : Reports timer none computed slot where
  awake _ := ⟨ls, hlast, hslot, hlt⟩
  asleep h := absurd rfl h
  advance ls' hls' := by
    obtain rfl := Option.some.inj (hlast.symm.trans hls')
    exact .inr (.inl hslot)

theorem sleeping (hlast : timer.lastReportedSlot = some ls) (hle : ls.val ≤ computed.val)
    (hcatch : ¬ (ls.val + 1 < computed.val ∧ computed.val ≤ ls.val + 3)) :
    Reports timer (some w) computed computed where
  awake := by simp
  asleep _ := rfl
  advance ls' hls' := by
    obtain rfl := Option.some.inj (hlast.symm.trans hls')
    rcases hle.eq_or_lt with heq | hlt
    · exact .inl (Uint.ext_val heq.symm)
    · by_cases hnext : computed.val = ls.val + 1
      · exact .inr (.inl hnext)
      · exact .inr (.inr ⟨rfl, by omega⟩)

end Reports

/-- The computed slot is not below the last reported one, and has representable slots after it. -/
theorem last_le_computed (hR : 500 ≤ timer.relaySlotDuration.asMillis)
    (hrep : timer.Representable (.waitUntilNextSlot timeNow))
    (hbehind : timer.Behind (sinceOffset timeNow timer.timeOffset)) {w : Duration} {computed : Slot}
    (hcompute : timer.timeUntilNextBlock timer.slotDurationMillis timeNow = .ok (w, computed))
    (hlast : timer.lastReportedSlot = some ls) :
    ls.val ≤ computed.val ∧ ls.val + 3 < 2 ^ 64 := by
  obtain ⟨interval, hinterval, -⟩ := computeNextWakeUpTime_eq_ok.1 hcompute
  have hP := blockProductionInterval_pos hinterval
  have hle : ls.val ≤ computed.val :=
    ((Nat.le_div_iff_mul_le hP).2 (hbehind ls hlast)).trans (computed_bounds hR hrep.1 hcompute).1
  have hcomputed : computed.val + 3 < 2 ^ 64 := hrep.2 _ hcompute
  exact ⟨hle, by omega⟩

theorem wait_reports (hR : 500 ≤ timer.relaySlotDuration.asMillis)
    (hrep : timer.Representable (.waitUntilNextSlot timeNow))
    (hbehind : timer.Behind (sinceOffset timeNow timer.timeOffset))
    (h : waitUntilNextSlot overflowChecks timeNow timer = (.ok slept, timer')) :
    ∃ w computed slot, timer.timeUntilNextBlock timer.slotDurationMillis timeNow = .ok (w, computed)
      ∧ timer' = { timer with lastReportedSlot := some slot } ∧
      Reports timer slept computed slot ∧
      slot.val * timer.slotDurationMillis.val ≤
        sinceOffset timeNow timer.timeOffset + slept.elim 0 Duration.asMillis := by
  obtain ⟨w, computed, hcompute, h⟩ := waitUntilNextSlot_eq_ok.1 h
  obtain ⟨-, hhigh, hinstant⟩ := computed_bounds hR hrep.1 hcompute
  refine ⟨w, computed, ?_⟩
  rcases hlast : timer.lastReportedSlot with _ | ls
  · simp only [hlast, catchUp, pure, Outcome.ok.injEq, reduceCtorEq, false_and, exists_false,
      true_and, false_or] at h
    obtain ⟨rfl, rfl⟩ := h
    exact ⟨computed, hcompute, rfl, .first hlast, hinstant⟩
  · obtain ⟨hls, hfits⟩ := last_le_computed hR hrep hbehind hcompute hlast
    rw [hlast, catchUp_fits hfits] at h
    simp only [Outcome.ok.injEq] at h
    split_ifs at h with hcatch
    · obtain ⟨successor, hsuccessor, rfl, rfl⟩ | ⟨hnone, -⟩ := h
      · obtain rfl := Option.some.inj hsuccessor
        -- the next slot has begun, as the computed one is at most one after that of the clock
        have hbegun : ls.val + 1 ≤ sinceOffset timeNow timer.timeOffset
            / timer.slotDurationMillis.val := by omega
        refine ⟨_, hcompute, rfl, .successor hlast rfl hcatch.1, ?_⟩
        exact (Nat.mul_le_mul_right _ hbegun).trans (Nat.div_mul_le_self _ _)
      · cases hnone
    · obtain ⟨successor, hsuccessor, -⟩ | ⟨-, rfl, rfl⟩ := h
      · cases hsuccessor
      · exact ⟨computed, hcompute, rfl, .sleeping hlast hls hcatch, hinstant⟩

theorem wait_answers (overflowChecks : Bool) (hP : 0 < timer.slotDurationMillis.val)
    (hR : 500 ≤ timer.relaySlotDuration.asMillis)
    (hrep : timer.Representable (.waitUntilNextSlot timeNow))
    (hbehind : timer.Behind (sinceOffset timeNow timer.timeOffset)) :
    ∃ slept timer', waitUntilNextSlot overflowChecks timeNow timer = (.ok slept, timer') := by
  obtain ⟨interval, hinterval⟩ := exists_interval hP timer.relaySlotDuration
    timer.lastReportedCoreNum
  have hi : 0 < interval.asMillis :=
    (interval_pos_iff hinterval).2 (.inl (Nat.zero_lt_of_lt hR))
  obtain ⟨w, computed, hcompute⟩ := exists_wakeUp hinterval hi timeNow timer.timeOffset
  have hcatch : ∃ successor, catchUp overflowChecks timer.lastReportedSlot computed =
      .ok successor := by
    rcases hlast : timer.lastReportedSlot with _ | ls
    · exact ⟨none, rfl⟩
    · exact ⟨_, catchUp_fits (last_le_computed hR hrep hbehind hcompute hlast).2⟩
  obtain ⟨_ | successor, hcatch⟩ := hcatch
  · exact ⟨_, _, waitUntilNextSlot_eq_ok.2 ⟨w, computed, hcompute, .inr ⟨hcatch, rfl, rfl⟩⟩⟩
  · exact ⟨_, _, waitUntilNextSlot_eq_ok.2
      ⟨w, computed, hcompute, .inl ⟨successor, hcatch, rfl, rfl⟩⟩⟩

end Step

section Runs

open SlotTimer

variable {overflowChecks : Bool} {timeOffset relaySlotDuration : Duration}
  {paraSlotDuration : Option Duration} {h : List RunEvent} {timer : SlotTimer}

/-- The runs with a clock that goes on, which computes representable instants. -/
def Allows (h : List RunEvent) (timer : SlotTimer) (op : Op) : Prop :=
  ClockAllows h timer op ∧ timer.Representable op

/-- What the timer has reported is behind the clock, and is what the history reported last. -/
structure Follows (timeOffset relaySlotDuration : Duration) (paraSlotDuration : Option Duration)
    (h : List RunEvent) (timer : SlotTimer) : Prop where
  offset : timer.timeOffset = timeOffset
  relay : timer.relaySlotDuration = relaySlotDuration
  para : timer.paraSlotDuration = paraSlotDuration
  last : timer.lastReportedSlot = (h.filterMap reportedSlot).head?
  sorted : (h.filterMap reportedSlot).Pairwise (· ≥ ·)
  behind : timer.Behind (earliest h / 1000000 - timeOffset.asMillis)

namespace Follows

theorem genesis :
    Follows timeOffset relaySlotDuration paraSlotDuration []
      (.newWithOffset timeOffset relaySlotDuration paraSlotDuration) where
  offset := rfl
  relay := rfl
  para := rfl
  last := rfl
  sorted := .nil
  behind := by simp [Behind, newWithOffset]

variable {e : RunEvent}

/-- An event that reports nothing changes only the number of cores. -/
theorem silent (hf : Follows timeOffset relaySlotDuration paraSlotDuration h timer)
    {timer' : SlotTimer} (hsame : ∃ cores, timer' = { timer with lastReportedCoreNum := cores })
    (hreported : reportedSlot e = none) (hearliest : earliest h ≤ earliest (e :: h)) :
    Follows timeOffset relaySlotDuration paraSlotDuration (e :: h) timer' := by
  obtain ⟨cores, rfl⟩ := hsame
  have hlist : (e :: h).filterMap reportedSlot = h.filterMap reportedSlot :=
    List.filterMap_cons_none hreported
  have hle := Nat.div_le_div_right (c := 1000000) hearliest
  refine ⟨hf.offset, hf.relay, hf.para, hlist ▸ hf.last, hlist ▸ hf.sorted, fun ls hls => ?_⟩
  exact (hf.behind ls hls).trans (Nat.sub_le_sub_right hle _)

theorem report (hf : Follows timeOffset relaySlotDuration paraSlotDuration h timer) {slot : Slot}
    (hreported : reportedSlot e = some slot)
    (hle : ∀ ls, timer.lastReportedSlot = some ls → ls ≤ slot)
    (hbehind : slot.val * timer.slotDurationMillis.val ≤
      earliest (e :: h) / 1000000 - timeOffset.asMillis) :
    Follows timeOffset relaySlotDuration paraSlotDuration (e :: h)
      { timer with lastReportedSlot := some slot } := by
  have hlist : (e :: h).filterMap reportedSlot = slot :: h.filterMap reportedSlot :=
    List.filterMap_cons_some hreported
  refine ⟨hf.offset, hf.relay, hf.para, by rw [hlist]; rfl, ?_, ?_⟩
  · rw [hlist, List.pairwise_cons]
    refine ⟨fun earlier hmem => ?_, hf.sorted⟩
    have hsorted := hf.sorted
    rcases hcons : h.filterMap reportedSlot with _ | ⟨ls, rest⟩ <;> rw [hcons] at hmem hsorted
    · simp at hmem
    · have hls : ls ≤ slot := hle ls (by rw [hf.last, hcons]; rfl)
      rcases List.mem_cons.1 hmem with rfl | hmem
      · exact hls
      · exact ((List.pairwise_cons.1 hsorted).1 earlier hmem).trans hls
  · rintro _ ⟨⟩
    exact hbehind

end Follows

/-- The next reading of the clock is not before the end of the sleep. -/
theorem sinceOffset_slept {timeNow : Duration} (slept : Option Duration)
    (hclock : timeOffset ≤ timeNow) :
    sinceOffset timeNow timeOffset + slept.elim 0 Duration.asMillis ≤
      (timeNow.val + slept.elim 0 Uint.val) / 1000000 - timeOffset.asMillis := by
  have hmillis := Duration.asMillis_mono hclock
  unfold sinceOffset
  rcases slept with _ | d
  · exact le_rfl
  · have hadd : timeNow.val / 1000000 + d.val / 1000000 ≤ (timeNow.val + d.val) / 1000000 :=
      Nat.div_add_div_le_add_div
    show timeNow.asMillis - timeOffset.asMillis + d.asMillis ≤
      (timeNow.val + d.val) / 1000000 - timeOffset.asMillis
    simp only [Duration.asMillis] at hmillis ⊢
    omega

theorem earliest_waited {timeNow : Duration} {slept : Option Duration} {timer' : SlotTimer} :
    earliest (⟨timer, .waitUntilNextSlot timeNow, .ok slept, timer'⟩ :: h) =
      timeNow.val + slept.elim 0 Uint.val := by
  cases slept <;> rfl

theorem Follows.behind_clock (hf : Follows timeOffset relaySlotDuration paraSlotDuration h timer)
    {timeNow : Duration} (hearliest : earliest h ≤ timeNow.val) :
    timer.Behind (sinceOffset timeNow timer.timeOffset) := by
  intro ls hls
  rw [hf.offset]
  exact (hf.behind ls hls).trans (Nat.sub_le_sub_right (Nat.div_le_div_right hearliest) _)

theorem exec_follows (hR : 500 ≤ relaySlotDuration.asMillis) {op : Op}
    (hf : Follows timeOffset relaySlotDuration paraSlotDuration h timer)
    (ha : Allows h timer op) :
    Follows timeOffset relaySlotDuration paraSlotDuration
      ((machine overflowChecks timeOffset relaySlotDuration paraSlotDuration).event timer op :: h)
      ((machine overflowChecks timeOffset relaySlotDuration paraSlotDuration).exec timer op).2 := by
  cases op with
  | updateScheduling numCoresNextBlock =>
    exact hf.silent ⟨some numCoresNextBlock, rfl⟩ rfl le_rfl
  | waitUntilNextSlot timeNow =>
    obtain ⟨⟨hoffset, hearliest⟩, hrep⟩ := ha
    unfold Machine.event
    rcases waitUntilNextSlot_cases overflowChecks timeNow timer with ⟨slept, timer', hw⟩ | ⟨m, hw⟩
    · have hexec : (machine overflowChecks timeOffset relaySlotDuration paraSlotDuration).exec timer
          (.waitUntilNextSlot timeNow) = (.ok slept, timer') := hw
      rw [hexec]
      obtain ⟨_, computed, slot, -, rfl, hreports, hslot⟩ :=
        wait_reports (hf.relay ▸ hR) hrep (hf.behind_clock hearliest) hw
      refine hf.report rfl (fun ls hls => hreports.le hls) (hslot.trans ?_)
      rw [earliest_waited, hf.offset]
      exact sinceOffset_slept slept (hf.offset ▸ hoffset)
    · have hexec : (machine overflowChecks timeOffset relaySlotDuration paraSlotDuration).exec timer
          (.waitUntilNextSlot timeNow) = (.panic m, timer) := hw
      rw [hexec]
      exact hf.silent ⟨_, rfl⟩ rfl hearliest

theorem follows_of_run (hR : 500 ≤ relaySlotDuration.asMillis)
    (hr : (machine overflowChecks timeOffset relaySlotDuration paraSlotDuration).Run Allows h
      timer) : Follows timeOffset relaySlotDuration paraSlotDuration h timer := by
  refine hr.invariant _ ?_ fun h timer op _ hf ha => exec_follows hR hf ha
  rintro _ rfl
  exact .genesis

/-- **Reported slots.** With a relay slot of at least 500 ms, and a clock that is never below the
offset, never goes back and goes on by what is slept, as long as the computed instants are
representable, the reported slots never go back. A slot after the first is the last reported one or
the one after it, or else the slot computed from the clock, where that is more than three ahead. A
wait that does not sleep reports the slot after the last one, which is behind the computed one.
Where the slot duration is not zero, every wait reports. -/
theorem reported_slots_follow_clock (hR : millis 500 ≤ relaySlotDuration)
    (hr : (machine overflowChecks timeOffset relaySlotDuration paraSlotDuration).Run Allows h
      timer) :
    (h.filterMap reportedSlot).Pairwise (· ≥ ·) ∧
    timer.lastReportedSlot = (h.filterMap reportedSlot).head? ∧
    ∀ e ∈ h, ∀ timeNow, e.op = .waitUntilNextSlot timeNow →
      (0 < e.before.slotDurationMillis.val → ∃ slept, e.answer = .ok slept) ∧
      ∀ slept, e.answer = .ok slept →
        ∃ w computed slot,
          e.before.timeUntilNextBlock e.before.slotDurationMillis timeNow = .ok (w, computed) ∧
          e.after.lastReportedSlot = some slot ∧
          (∀ ls, e.before.lastReportedSlot = some ls →
            slot = ls ∨ slot.val = ls.val + 1 ∨ slot = computed ∧ ls.val + 3 < slot.val) ∧
          (slept = none → ∃ ls, e.before.lastReportedSlot = some ls ∧ slot.val = ls.val + 1 ∧
            slot < computed) := by
  have hmillis : 500 ≤ relaySlotDuration.asMillis := by
    have hle := Duration.asMillis_mono hR
    rwa [Duration.fromMillis_asMillis] at hle
  have hf := follows_of_run hmillis hr
  refine ⟨hf.sorted, hf.last, fun e he timeNow hop => ?_⟩
  obtain ⟨h', hr', ha, hevent⟩ := hr.mem_event he
  have hf' := follows_of_run hmillis hr'
  rw [hop] at ha hevent
  obtain ⟨⟨-, hearliest⟩, hrep⟩ := ha
  have hR' : 500 ≤ e.before.relaySlotDuration.asMillis := hf'.relay ▸ hmillis
  have hbehind := hf'.behind_clock hearliest
  refine ⟨fun hP => ?_, fun slept hslept => ?_⟩
  · obtain ⟨slept, timer', hw⟩ := wait_answers overflowChecks hP hR' hrep hbehind
    exact ⟨slept, by rw [hevent]; exact congrArg Prod.fst hw⟩
  · have hw : waitUntilNextSlot overflowChecks timeNow e.before = (.ok slept, e.after) := by
      rw [← hslept, hevent]
      rfl
    obtain ⟨w, computed, slot, hcompute, hafter, hreports, -⟩ := wait_reports hR' hrep hbehind hw
    exact ⟨w, computed, slot, hcompute, by rw [hafter], hreports.advance, hreports.awake⟩

instance (timer : SlotTimer) : ∀ op, Decidable (timer.Representable op)
  | .waitUntilNextSlot _ => inferInstanceAs (Decidable (_ ∧ _))
  | .updateScheduling _ => inferInstanceAs (Decidable True)

instance (h : List RunEvent) (timer : SlotTimer) (op : Op) : Decidable (Allows h timer op) :=
  inferInstanceAs (Decidable (_ ∧ _))

/-- A new timer with slots of 6 s. -/
def testRun (ops : List Op) : List RunEvent × SlotTimer :=
  (machine true 0 (millis 6000) none).replay [] (.newWithOffset 0 (millis 6000) none) ops

/-- A late call catches up on a slot, cores are added within one, and the node is halted. -/
def testOps : List Op :=
  [.waitUntilNextSlot 0, .waitUntilNextSlot (millis 18500), .waitUntilNextSlot (millis 18600),
    .waitUntilNextSlot (millis 18700), .updateScheduling (.lit 3),
    .waitUntilNextSlot (millis 24000), .waitUntilNextSlot (millis 60000)]

theorem reported_slots_follow_clock_test :
    (testRun testOps).1.filterMap reportedSlot = [.lit 10, .lit 4, .lit 4, .lit 3, .lit 2, .lit 1] ∧
      ((testRun testOps).1.filterMap reportedSlot).Pairwise (· ≥ ·) := by
  have hrun : (machine true 0 (millis 6000) none).Run Allows (testRun testOps).1
      (testRun testOps).2 := Machine.run_replay _ (.start rfl) (by decide +kernel)
  exact ⟨by decide +kernel, (reported_slots_follow_clock (by decide) hrun).1⟩

/-- The first attempt is the last one before `2 ^ 64` ms. -/
def lateOps : List Op :=
  [.waitUntilNextSlot (millis 18446744073709547999),
    .waitUntilNextSlot (millis 18446744073709548000)]

/-- From `2 ^ 64` ms on the slots are computed from 0 again. -/
theorem reported_slot_goes_back :
    ∃ h timer, (machine true 0 (millis 6000) none).Run ClockAllows h timer ∧
      ¬ (h.filterMap reportedSlot).Pairwise (· ≥ ·) :=
  ⟨(testRun lateOps).1, (testRun lateOps).2,
    Machine.run_replay _ (.start rfl) (by decide +kernel), by decide +kernel⟩

end Runs

end SlotBased

end Moonkit
