import Moonkit.Base.Multiples
import Moonkit.SlotTimer

/-!
# Block production instants

The next attempt is at the least multiple of an interval after the time since the offset, in whole
milliseconds. The interval is the shorter of the two slot durations, except where more cores are
assigned than there are parachain slots in a relay slot: there it is the relay slot duration over
the number of cores, and at least 500 ms.
-/

namespace Moonkit

namespace SlotBased

variable {P : SlotDuration} {R interval : Duration} {cores : Option U32}
  {timeNow timeOffset : Duration}

namespace Duration

@[simp] theorem fromMillis_val (millis : U64) : (fromMillis millis).val = millis.val * 1000000 :=
  rfl

@[simp] theorem fromMillis_asMillis (millis : U64) : (fromMillis millis).asMillis = millis.val :=
  Nat.mul_div_cancel _ (by decide)

theorem asMillis_mono {d d' : Duration} (h : d ≤ d') : d.asMillis ≤ d'.asMillis :=
  Nat.div_le_div_right h

theorem asMillis_max (d d' : Duration) : (max d d').asMillis = max d.asMillis d'.asMillis :=
  Monotone.map_max fun _ _ => asMillis_mono

end Duration

theorem asU64_val {n : ℕ} (h : n < 2 ^ 64) : (asU64 n).val = n := Nat.mod_eq_of_lt h

section Interval

/-- `assigned_core_num` -/
def assignedCores (cores : Option U32) : ℕ := (cores.getD (.lit 1)).val

/-- There are more cores than parachain slots in a relay slot. -/
def SplitsSlot (P : SlotDuration) (R : Duration) (cores : Option U32) : Prop :=
  asU32 (R.asMillis / P.val) < cores.getD (.lit 1) ∧ R ≤ .fromMillis P

theorem blockProductionInterval_pos (h : blockProductionInterval P R cores = .ok interval) :
    0 < P.val := by
  obtain ⟨_, hdiv, -⟩ := Outcome.bind_eq_ok.1 h
  exact (Outcome.div_eq_ok.1 hdiv).1

/-- The relay slot duration over the number of cores. -/
def perCore (R : Duration) (cores : Option U32) : Duration :=
  ⟨R.val / assignedCores cores, (Nat.div_le_self _ _).trans R.le_max⟩

theorem blockProductionInterval_split (hP : 0 < P.val) (hs : SplitsSlot P R cores) :
    blockProductionInterval P R cores =
      .ok (max (perCore R cores) blockProductionMinimumIntervalMs) := by
  have hcores : (cores.getD (.lit 1)).val ≠ 0 := Nat.ne_zero_of_lt hs.1
  have hdiv : R.div (cores.getD (.lit 1)) = .ok (perCore R cores) := if_neg hcores
  refine Outcome.bind_eq_ok.2 ⟨_, Outcome.div_eq_ok.2 ⟨hP, rfl⟩, (if_pos hs).trans ?_⟩
  exact Outcome.bind_eq_ok.2 ⟨_, hdiv, rfl⟩

theorem blockProductionInterval_whole (hP : 0 < P.val) (hs : ¬ SplitsSlot P R cores) :
    blockProductionInterval P R cores = .ok (min (.fromMillis P) R) :=
  Outcome.bind_eq_ok.2 ⟨_, Outcome.div_eq_ok.2 ⟨hP, rfl⟩, if_neg hs⟩

theorem interval_of_lt (hP : 0 < P.val) (h : .fromMillis P < R) :
    blockProductionInterval P R cores = .ok (.fromMillis P) := by
  rw [blockProductionInterval_whole hP fun hs => not_lt.2 hs.2 h, min_eq_left h.le]

theorem interval_of_le (hP : 0 < P.val) (h : R ≤ .fromMillis P) (hs : ¬ SplitsSlot P R cores) :
    blockProductionInterval P R cores = .ok R := by
  rw [blockProductionInterval_whole hP hs, min_eq_right h]

/-- Without a split there is a parachain slot for every core. -/
theorem assignedCores_le (h : R ≤ .fromMillis P) (hs : ¬ SplitsSlot P R cores) :
    assignedCores cores ≤ R.asMillis / P.val := by
  have hcast : (asU32 (R.asMillis / P.val)).val ≤ R.asMillis / P.val := Nat.mod_le _ _
  by_contra hlt
  exact hs ⟨Uint.lt_iff_val.2 (hcast.trans_lt (not_le.1 hlt)), h⟩

theorem perCore_asMillis : (perCore R cores).asMillis = R.asMillis / assignedCores cores :=
  Nat.div_right_comm ..

theorem exists_interval (hP : 0 < P.val) (R : Duration) (cores : Option U32) :
    ∃ interval, blockProductionInterval P R cores = .ok interval := by
  by_cases hs : SplitsSlot P R cores
  · exact ⟨_, blockProductionInterval_split hP hs⟩
  · exact ⟨_, blockProductionInterval_whole hP hs⟩

/-- The three ways in which the interval is chosen, in whole milliseconds. -/
theorem interval_cases (hinterval : blockProductionInterval P R cores = .ok interval) :
    (.fromMillis P < R ∧ interval = .fromMillis P) ∨
      R.asMillis ≤ P.val ∧
        (0 < assignedCores cores ∧
            interval.asMillis = max (R.asMillis / assignedCores cores) 500 ∨
          assignedCores cores ≤ R.asMillis / P.val ∧ interval = R) := by
  have hP := blockProductionInterval_pos hinterval
  rcases lt_or_ge (.fromMillis P) R with hlt | hle
  · exact .inl ⟨hlt, Outcome.ok_unique hinterval (interval_of_lt hP hlt)⟩
  · have hmillis := Duration.asMillis_mono hle
    rw [Duration.fromMillis_asMillis] at hmillis
    refine .inr ⟨hmillis, ?_⟩
    by_cases hs : SplitsSlot P R cores
    · rw [blockProductionInterval_split hP hs] at hinterval
      obtain rfl := Outcome.ok.inj hinterval
      refine .inl ⟨Nat.zero_lt_of_lt hs.1, ?_⟩
      rw [Duration.asMillis_max, perCore_asMillis]
      rfl
    · rw [interval_of_le hP hle hs] at hinterval
      exact .inr ⟨assignedCores_le hle hs, (Outcome.ok.inj hinterval).symm⟩

theorem interval_pos_iff (hinterval : blockProductionInterval P R cores = .ok interval) :
    0 < interval.asMillis ↔ 0 < R.asMillis ∨ 0 < assignedCores cores := by
  have hP := blockProductionInterval_pos hinterval
  rcases interval_cases hinterval with ⟨hlt, rfl⟩ | ⟨hle, ⟨hcores, hi⟩ | ⟨hcores, rfl⟩⟩
  · have hmillis := Duration.asMillis_mono hlt.le
    rw [Duration.fromMillis_asMillis] at hmillis ⊢
    omega
  · omega
  · refine ⟨.inl, fun h => h.elim id fun hpos => ?_⟩
    exact (Nat.div_pos_iff.1 (hpos.trans_le hcores)).1.trans_le
      (Nat.div_pos_iff.1 (hpos.trans_le hcores)).2

/-- The interval fits into a relay slot as often as there are cores, and is 500 ms or more. -/
theorem interval_fits (hinterval : blockProductionInterval P R cores = .ok interval)
    (hle : R ≤ .fromMillis P) (hR : 500 ≤ R.asMillis) :
    500 ≤ interval.asMillis ∧
      max 1 (min (assignedCores cores) (R.asMillis / 500)) ≤ R.asMillis / interval.asMillis := by
  have hP := blockProductionInterval_pos hinterval
  have hone : 1 ≤ R.asMillis / 500 := (Nat.one_le_div_iff (by decide)).2 hR
  rcases interval_cases hinterval with ⟨hlt, -⟩ | ⟨hmillis, ⟨hcores, hi⟩ | ⟨hcores, rfl⟩⟩
  · exact absurd hle (not_le.2 hlt)
  · refine ⟨hi ▸ le_max_right _ _, ?_⟩
    rcases le_total (R.asMillis / assignedCores cores) 500 with hcase | hcase
    · rw [hi, max_eq_right hcase]
      exact max_le hone (min_le_right _ _)
    · have hfit : assignedCores cores ≤ R.asMillis / (R.asMillis / assignedCores cores) := by
        rw [Nat.le_div_iff_mul_le (Nat.zero_lt_of_lt hcase)]
        exact Nat.mul_div_le _ _
      rw [hi, max_eq_left hcase]
      exact max_le (hcores.trans_le hfit) ((min_le_left _ _).trans hfit)
  · refine ⟨hR, ?_⟩
    have hone' : assignedCores cores ≤ 1 :=
      hcores.trans ((Nat.div_le_div_right hmillis).trans (Nat.div_self hP).le)
    rw [Nat.div_self (Nat.zero_lt_of_lt hR)]
    exact max_le le_rfl ((min_le_left _ _).trans hone')

/-- Between two attempts the slot changes once at most. -/
theorem interval_le_slot (hinterval : blockProductionInterval P R cores = .ok interval)
    (hR : 500 ≤ R.asMillis) : interval.asMillis ≤ P.val := by
  rcases interval_cases hinterval with ⟨-, rfl⟩ | ⟨hmillis, ⟨-, hi⟩ | ⟨-, rfl⟩⟩
  · rw [Duration.fromMillis_asMillis]
  · rw [hi]
    exact max_le ((Nat.div_le_self _ _).trans hmillis) (hR.trans hmillis)
  · exact hmillis

theorem interval_lt (hinterval : blockProductionInterval P R cores = .ok interval) :
    interval.asMillis < 2 ^ 64 := by
  have hmax := P.le_max
  rcases interval_cases hinterval with ⟨-, rfl⟩ | ⟨hmillis, ⟨-, hi⟩ | ⟨-, rfl⟩⟩
  · rw [Duration.fromMillis_asMillis]
    omega
  · have hle : R.asMillis / assignedCores cores ≤ P.val := (Nat.div_le_self _ _).trans hmillis
    omega
  · omega

end Interval

section Attempt

/-- Whole milliseconds since the offset, or 0 before it. -/
def sinceOffset (timeNow timeOffset : Duration) : ℕ := timeNow.asMillis - timeOffset.asMillis

theorem timeUntilNextAttempt_eq (hi : 0 < interval.asMillis) :
    timeUntilNextAttempt timeNow interval timeOffset =
      .ok (.fromMillis (asU64 (Multiples.next interval.asMillis (sinceOffset timeNow timeOffset)
          - sinceOffset timeNow timeOffset)),
        asU64 (Multiples.next interval.asMillis (sinceOffset timeNow timeOffset))) :=
  Outcome.bind_eq_ok.2 ⟨_, Outcome.div_eq_ok.2 ⟨hi, rfl⟩, rfl⟩

theorem computeNextWakeUpTime_eq_ok {w : Duration} {slot : Slot} :
    computeNextWakeUpTime P R cores timeNow timeOffset = .ok (w, slot) ↔
      ∃ interval, blockProductionInterval P R cores = .ok interval ∧ 0 < interval.asMillis ∧
        w = .fromMillis (asU64 (Multiples.next interval.asMillis (sinceOffset timeNow timeOffset)
          - sinceOffset timeNow timeOffset)) ∧
        slot.val = (Multiples.next interval.asMillis (sinceOffset timeNow timeOffset)) % 2 ^ 64
          / P.val := by
  unfold computeNextWakeUpTime
  rw [Outcome.bind_eq_ok]
  refine exists_congr fun interval => and_congr_right fun hinterval => ?_
  have hP := blockProductionInterval_pos hinterval
  rw [Outcome.bind_eq_ok]
  constructor
  · rintro ⟨⟨duration, timestamp⟩, hattempt, h⟩
    have hi : 0 < interval.asMillis := by
      obtain ⟨_, hdiv, -⟩ := Outcome.bind_eq_ok.1 hattempt
      exact (Outcome.div_eq_ok.1 hdiv).1
    rw [timeUntilNextAttempt_eq hi] at hattempt
    simp only [Outcome.ok.injEq, Prod.mk.injEq] at hattempt
    obtain ⟨rfl, rfl⟩ := hattempt
    obtain ⟨slot', hslot, h⟩ := Outcome.bind_eq_ok.1 h
    obtain ⟨rfl, rfl⟩ := Prod.mk.inj (Outcome.ok.inj h)
    exact ⟨hi, rfl, (Uint.checkedDiv_eq_some.1 (Outcome.expect_eq_ok.1 hslot)).2⟩
  · rintro ⟨hi, rfl, hslot⟩
    refine ⟨_, timeUntilNextAttempt_eq hi, Outcome.bind_eq_ok.2 ⟨slot, ?_, rfl⟩⟩
    exact Outcome.expect_eq_ok.2 (Uint.checkedDiv_eq_some.2 ⟨hP, hslot⟩)

/-- The instant of the attempt that is computed at a clock reading is below `2 ^ 64` ms. -/
def InRange (P : SlotDuration) (R : Duration) (cores : Option U32) (timeNow timeOffset : Duration) :
    Prop :=
  ∀ interval, blockProductionInterval P R cores = .ok interval →
    Multiples.next interval.asMillis (sinceOffset timeNow timeOffset) < 2 ^ 64

instance : Decidable (InRange P R cores timeNow timeOffset) :=
  inferInstanceAs (Decidable (∀ interval, blockProductionInterval P R cores = .ok interval →
    Multiples.next interval.asMillis (sinceOffset timeNow timeOffset) < 2 ^ 64))

/-- An attempt is computed at some clock reading for the instant `a`, in milliseconds since the
offset. -/
def Attempt (P : SlotDuration) (R : Duration) (cores : Option U32) (timeOffset : Duration) (a : ℕ) :
    Prop :=
  ∃ timeNow w slot, InRange P R cores timeNow timeOffset ∧
    computeNextWakeUpTime P R cores timeNow timeOffset = .ok (w, slot) ∧
    sinceOffset timeNow timeOffset + w.asMillis = a

variable (hinterval : blockProductionInterval P R cores = .ok interval)

include hinterval

theorem wakeUp_wait {w : Duration} {slot : Slot}
    (h : computeNextWakeUpTime P R cores timeNow timeOffset = .ok (w, slot)) :
    0 < interval.asMillis ∧ w.val = w.asMillis * 1000000 ∧
      sinceOffset timeNow timeOffset + w.asMillis
        = Multiples.next interval.asMillis (sinceOffset timeNow timeOffset) := by
  obtain ⟨interval', hinterval', hi, rfl, -⟩ := computeNextWakeUpTime_eq_ok.1 h
  obtain rfl := Outcome.ok_unique hinterval hinterval'
  have hlt := Multiples.lt_next hi (sinceOffset timeNow timeOffset)
  have hle := Multiples.next_le_add interval.asMillis (sinceOffset timeNow timeOffset)
  have hmax := interval_lt hinterval
  rw [Duration.fromMillis_val, Duration.fromMillis_asMillis, asU64_val (by omega),
    Nat.add_sub_cancel' hlt.le]
  exact ⟨hi, rfl, rfl⟩

theorem wakeUp_slot {w : Duration} {slot : Slot} (hrange : InRange P R cores timeNow timeOffset)
    (h : computeNextWakeUpTime P R cores timeNow timeOffset = .ok (w, slot)) :
    slot.val = (sinceOffset timeNow timeOffset + w.asMillis) / P.val := by
  rw [(wakeUp_wait hinterval h).2.2]
  obtain ⟨interval', hinterval', -, -, hslot⟩ := computeNextWakeUpTime_eq_ok.1 h
  obtain rfl := Outcome.ok_unique hinterval hinterval'
  rwa [Nat.mod_eq_of_lt (hrange interval hinterval)] at hslot

theorem attempt_spec {a : ℕ} (ha : Attempt P R cores timeOffset a) :
    interval.asMillis ∣ a ∧ 0 < a ∧ a < 2 ^ 64 := by
  obtain ⟨timeNow, w, slot, hrange, h, rfl⟩ := ha
  obtain ⟨hi, -, hinstant⟩ := wakeUp_wait hinterval h
  rw [hinstant]
  exact ⟨Multiples.dvd_next _ _, Nat.zero_lt_of_lt (Multiples.lt_next hi _), hrange _ hinterval⟩

theorem exists_wakeUp (hi : 0 < interval.asMillis) (timeNow timeOffset : Duration) :
    ∃ w slot, computeNextWakeUpTime P R cores timeNow timeOffset = .ok (w, slot) := by
  have hle : Multiples.next interval.asMillis (sinceOffset timeNow timeOffset) % 2 ^ 64 / P.val
      ≤ 2 ^ 64 - 1 :=
    (Nat.div_le_self _ _).trans (Nat.le_sub_one_of_lt (Nat.mod_lt _ (by decide)))
  exact ⟨_, ⟨_, hle⟩, computeNextWakeUpTime_eq_ok.2 ⟨interval, hinterval, hi, rfl, rfl⟩⟩

/-- Every multiple of the interval has its attempt, where the clock can read the time before it. -/
theorem attempt_of_dvd {a : ℕ} (hi : 0 < interval.asMillis) (hd : interval.asMillis ∣ a)
    (hpos : 0 < a) (hlt : a < 2 ^ 64) (hclock : timeOffset.asMillis + a ≤ 2 ^ 64 * 1000) :
    Attempt P R cores timeOffset a := by
  have hmax : (timeOffset.asMillis + (a - 1)) * 1000000 ≤ 2 ^ 64 * 1000000000 - 1 := by omega
  let timeNow : Duration := ⟨(timeOffset.asMillis + (a - 1)) * 1000000, hmax⟩
  have hmillis : timeNow.asMillis = timeOffset.asMillis + (a - 1) :=
    Nat.mul_div_cancel _ (by decide)
  have hsince : sinceOffset timeNow timeOffset = a - 1 := by
    unfold sinceOffset
    omega
  have hnext : Multiples.next interval.asMillis (sinceOffset timeNow timeOffset) = a := by
    rw [hsince, Multiples.next_pred hi hd hpos]
  have hrange : InRange P R cores timeNow timeOffset := by
    intro interval' hinterval'
    obtain rfl := Outcome.ok_unique hinterval hinterval'
    rwa [hnext]
  obtain ⟨w, slot, h⟩ := exists_wakeUp hinterval hi timeNow timeOffset
  exact ⟨timeNow, w, slot, hrange, h, (wakeUp_wait hinterval h).2.2.trans hnext⟩

end Attempt

section Windows

/-- At least `n` attempts are in `w`. -/
def AttemptsIn (P : SlotDuration) (R : Duration) (cores : Option U32) (timeOffset : Duration)
    (w : Set ℕ) (n : ℕ) : Prop :=
  ∃ attempts : Finset ℕ, n ≤ attempts.card ∧
    ∀ a ∈ attempts, a ∈ w ∧ Attempt P R cores timeOffset a

theorem attemptsIn_window (hinterval : blockProductionInterval P R cores = .ok interval)
    (hi : 0 < interval.asMillis) {a l : ℕ} (hlt : a + l < 2 ^ 64)
    (hclock : timeOffset.asMillis + (a + l) ≤ 2 ^ 64 * 1000) :
    AttemptsIn P R cores timeOffset (Set.Ioc a (a + l)) (l / interval.asMillis) := by
  refine ⟨Multiples.window interval.asMillis a l, Multiples.le_card_window hi a l, fun m hm => ?_⟩
  obtain ⟨hm, hd⟩ := Multiples.mem_window.1 hm
  exact ⟨hm, attempt_of_dvd hinterval hi hd (Nat.zero_lt_of_lt hm.1) (by omega) (by omega)⟩

theorem wakeUp_isLeast (hinterval : blockProductionInterval P R cores = .ok interval)
    {w : Duration} {slot : Slot}
    (h : computeNextWakeUpTime P R cores timeNow timeOffset = .ok (w, slot)) :
    0 < w.val ∧ w ≤ interval ∧
      IsLeast {m | interval.asMillis ∣ m ∧ sinceOffset timeNow timeOffset < m}
        (sinceOffset timeNow timeOffset + w.asMillis) := by
  obtain ⟨hi, hw, hinstant⟩ := wakeUp_wait hinterval h
  have hlt := Multiples.lt_next hi (sinceOffset timeNow timeOffset)
  have hle := Multiples.next_le_add interval.asMillis (sinceOffset timeNow timeOffset)
  have hfit : w.asMillis ≤ interval.asMillis := by omega
  refine ⟨by omega, Uint.le_iff_val.2 ?_, ?_⟩
  · rw [hw]
    exact (Nat.mul_le_mul_right _ hfit).trans (Nat.div_mul_le_self interval.val 1000000)
  · rw [hinstant]
    exact Multiples.isLeast_next hi _

theorem wakeUp_contains (hinterval : blockProductionInterval P R cores = .ok interval)
    {w : Duration} {slot : Slot} (hrange : InRange P R cores timeNow timeOffset)
    (h : computeNextWakeUpTime P R cores timeNow timeOffset = .ok (w, slot)) :
    slot.val * P.val ≤ sinceOffset timeNow timeOffset + w.asMillis ∧
      sinceOffset timeNow timeOffset + w.asMillis < (slot.val + 1) * P.val := by
  rw [wakeUp_slot hinterval hrange h]
  refine ⟨Nat.div_mul_le_self _ _, ?_⟩
  rw [Nat.mul_comm]
  exact Nat.lt_mul_div_succ _ (blockProductionInterval_pos hinterval)

theorem attempt_iff_start (hinterval : blockProductionInterval P R cores = .ok (.fromMillis P))
    {a : ℕ} (hlt : a < 2 ^ 64) (hclock : timeOffset.asMillis + a ≤ 2 ^ 64 * 1000) :
    Attempt P R cores timeOffset a ↔ 0 < a ∧ ∃ slot : Slot, a = slot.val * P.val := by
  have hP := blockProductionInterval_pos hinterval
  constructor
  · intro ha
    obtain ⟨hd, hpos, -⟩ := attempt_spec hinterval ha
    rw [Duration.fromMillis_asMillis] at hd
    have hmax : a / P.val ≤ 2 ^ 64 - 1 := (Nat.div_le_self _ _).trans (Nat.le_sub_one_of_lt hlt)
    exact ⟨hpos, ⟨a / P.val, hmax⟩, (Nat.div_mul_cancel hd).symm⟩
  · rintro ⟨hpos, slot, rfl⟩
    have hd : (Duration.fromMillis P).asMillis ∣ slot.val * P.val := by
      rw [Duration.fromMillis_asMillis]
      exact Nat.dvd_mul_left _ _
    refine attempt_of_dvd hinterval ?_ hd hpos hlt hclock
    rwa [Duration.fromMillis_asMillis]

/-- **Block production instants.** For slot durations of positive whole milliseconds the next
attempt is always computed: after a wait of at most the interval, at the least multiple of it after
the time since the offset, with the slot that contains that instant. Where parachain slots are
shorter than relay slots, the attempts are at their starts. Otherwise, and where a relay slot is
500 ms or more, every window of a relay slot has an attempt for every core, up to one for each
500 ms, and at least one; two attempts are 500 ms or more apart. -/
theorem block_production_instants {relayMillis : ℕ} (hP : 0 < P.val) (hpos : 0 < relayMillis)
    (hR : R.val = relayMillis * 1000000) (cores : Option U32) (timeOffset : Duration) :
    ∃ interval, blockProductionInterval P R cores = .ok interval ∧
      (∀ timeNow, ∃ w slot,
        computeNextWakeUpTime P R cores timeNow timeOffset = .ok (w, slot) ∧
          0 < w.val ∧ w ≤ interval ∧
          IsLeast {m | interval.asMillis ∣ m ∧ sinceOffset timeNow timeOffset < m}
            (sinceOffset timeNow timeOffset + w.asMillis) ∧
          (InRange P R cores timeNow timeOffset →
            slot.val * P.val ≤ sinceOffset timeNow timeOffset + w.asMillis ∧
            sinceOffset timeNow timeOffset + w.asMillis < (slot.val + 1) * P.val)) ∧
      (P.val < relayMillis → interval = .fromMillis P ∧
        ∀ a < 2 ^ 64, timeOffset.asMillis + a ≤ 2 ^ 64 * 1000 →
          (Attempt P R cores timeOffset a ↔ 0 < a ∧ ∃ slot : Slot, a = slot.val * P.val)) ∧
      (relayMillis ≤ P.val → 500 ≤ relayMillis →
        (∀ a, a + relayMillis < 2 ^ 64 →
          timeOffset.asMillis + (a + relayMillis) ≤ 2 ^ 64 * 1000 →
          AttemptsIn P R cores timeOffset (Set.Ioc a (a + relayMillis))
              (max 1 (min (assignedCores cores) (relayMillis / 500))) ∧
            AttemptsIn P R cores timeOffset (Set.Ico (a + 1) (a + 1 + relayMillis))
              (max 1 (min (assignedCores cores) (relayMillis / 500)))) ∧
        ∀ a b, Attempt P R cores timeOffset a → Attempt P R cores timeOffset b → a < b →
          a + 500 ≤ b) := by
  have hmillis : R.asMillis = relayMillis := by
    show R.val / 1000000 = relayMillis
    rw [hR, Nat.mul_div_cancel _ (by decide)]
  obtain ⟨interval, hinterval⟩ := exists_interval hP R cores
  have hi : 0 < interval.asMillis := (interval_pos_iff hinterval).2 (.inl (hmillis ▸ hpos))
  refine ⟨interval, hinterval, fun timeNow => ?_, fun hlt => ?_, fun hle h500 => ?_⟩
  · obtain ⟨w, slot, h⟩ := exists_wakeUp hinterval hi timeNow timeOffset
    obtain ⟨hw, hle, hleast⟩ := wakeUp_isLeast hinterval h
    exact ⟨w, slot, h, hw, hle, hleast, fun hrange => wakeUp_contains hinterval hrange h⟩
  · have hPR : .fromMillis P < R := by
      rw [Uint.lt_iff_val, Duration.fromMillis_val, hR]
      exact Nat.mul_lt_mul_of_pos_right hlt (by decide)
    rw [interval_of_lt hP hPR] at hinterval
    obtain rfl := Outcome.ok.inj hinterval
    exact ⟨rfl, fun a ha hclock => attempt_iff_start (interval_of_lt hP hPR) ha hclock⟩
  · have hRP : R ≤ .fromMillis P := by
      rw [Uint.le_iff_val, Duration.fromMillis_val, hR]
      exact Nat.mul_le_mul_right _ hle
    obtain ⟨hfar, hfits⟩ := interval_fits hinterval hRP (hmillis ▸ h500)
    rw [hmillis] at hfits
    refine ⟨fun a hlt hclock => ?_, fun a b ha hb hab => ?_⟩
    · obtain ⟨attempts, hcard, hmem⟩ := attemptsIn_window hinterval hi hlt hclock
      refine ⟨⟨attempts, hfits.trans hcard, hmem⟩, attempts, hfits.trans hcard, fun m hm => ?_⟩
      obtain ⟨⟨hlow, hhigh⟩, hattempt⟩ := hmem m hm
      exact ⟨⟨hlow, by omega⟩, hattempt⟩
    · have hle := Multiples.add_le_of_lt (attempt_spec hinterval ha).1
        (attempt_spec hinterval hb).1 hab
      omega

/-- Three cores give three attempts for each relay slot of 6 s. -/
theorem block_production_instants_three_cores :
    AttemptsIn (.lit 6000) (millis 6000) (some (.lit 3)) 0 (Set.Ioc 0 (0 + 6000)) 3 := by
  obtain ⟨_, _, _, _, h⟩ := block_production_instants (P := .lit 6000) (R := millis 6000)
    (by decide) (by decide : 0 < 6000) rfl (some (.lit 3)) 0
  exact ((h le_rfl (by decide)).1 0 (by decide) (by decide)).1

example : computeNextWakeUpTime (.lit 12000) (millis 6000) (some (.lit 3)) (millis 8100) 0 =
    .ok (millis 1900, .lit 0) := rfl

end Windows

end SlotBased

end Moonkit
