import Moonkit.AsyncBacking

/-!
# The slot timer

`client/consensus/nimbus-consensus/src/collators/slot_based/slot_timer.rs`. The slot-based collator
sleeps until its next attempt to produce a block, whose instant and slot the timer computes from
the clock and the number of cores. It shortens the authoring so that it ends before the slot does.
-/

namespace Moonkit

namespace SlotBased

/-- `std::time::Duration`: nanoseconds, of at most `u64::MAX` seconds and those of one second. -/
abbrev Duration := Uint (2 ^ 64 * 1000000000 - 1)

/-- `n as u64` -/
def asU64 (n : ℕ) : U64 := ⟨n % 2 ^ 64, Nat.le_sub_one_of_lt (Nat.mod_lt _ (by decide))⟩

/-- `n as u32` -/
def asU32 (n : ℕ) : U32 := ⟨n % 2 ^ 32, Nat.le_sub_one_of_lt (Nat.mod_lt _ (by decide))⟩

namespace Duration

def fromMillis (millis : U64) : Duration := ⟨millis.val * 1000000, by have := millis.le_max; omega⟩

/-- Whole milliseconds, as a `u128`. -/
def asMillis (duration : Duration) : ℕ := duration.val / 1000000

/-- The division by a `u32`, or a panic where it is zero. -/
def div (duration : Duration) (scalar : U32) : Outcome Empty Duration :=
  if scalar.val = 0 then .panic "divide by zero error when dividing duration by scalar"
  else .ok ⟨duration.val / scalar.val, (Nat.div_le_self _ _).trans duration.le_max⟩

end Duration

/-- Milliseconds of `Duration::from_millis`. -/
abbrev millis (n : ℕ) (h : Nat.ble n (2 ^ 64 - 1) = true := by exact Eq.refl true) : Duration :=
  .fromMillis (.lit n h)

/-- `BLOCK_PRODUCTION_MINIMUM_INTERVAL_MS` -/
def blockProductionMinimumIntervalMs : Duration := millis 500

/-- `BLOCK_PRODUCTION_THRESHOLD_MS` -/
def blockProductionThresholdMs : Duration := millis 100

/-- `BLOCK_PRODUCTION_ADJUSTMENT_MS` -/
def blockProductionAdjustmentMs : Duration := millis 1000

/-- The interval that `compute_next_wake_up_time` chooses. -/
def blockProductionInterval (paraSlotDuration : SlotDuration) (relaySlotDuration : Duration)
    (coreCount : Option U32) : Outcome Empty Duration := do
  let paraSlots ← Outcome.div relaySlotDuration.asMillis paraSlotDuration.val
  let paraSlotsPerRelayBlock := asU32 paraSlots
  let assignedCoreNum := coreCount.getD (.lit 1)
  let paraSlotDuration := Duration.fromMillis paraSlotDuration
  if paraSlotsPerRelayBlock < assignedCoreNum ∧ relaySlotDuration ≤ paraSlotDuration then do
    let interval ← relaySlotDuration.div assignedCoreNum
    pure (max interval blockProductionMinimumIntervalMs)
  else pure (min paraSlotDuration relaySlotDuration)

def timeUntilNextAttempt (now blockProductionInterval offset : Duration) :
    Outcome Empty (Duration × Timestamp) := do
  let now := now.asMillis - offset.asMillis
  let interval := blockProductionInterval.asMillis
  let intervals ← Outcome.div (now + interval) interval
  let nextSlotTime := intervals * interval
  let remainingMillis := nextSlotTime - now
  pure (.fromMillis (asU64 remainingMillis), asU64 nextSlotTime)

def computeNextWakeUpTime (paraSlotDuration : SlotDuration) (relaySlotDuration : Duration)
    (coreCount : Option U32) (timeNow timeOffset : Duration) : Outcome Empty (Duration × Slot) := do
  let interval ← blockProductionInterval paraSlotDuration relaySlotDuration coreCount
  let (duration, timestamp) ← timeUntilNextAttempt timeNow interval timeOffset
  let paraSlot ← Outcome.expect (Slot.fromTimestamp timestamp paraSlotDuration)
    "attempt to divide by zero"
  pure (duration, paraSlot)

section Build

-- whether the build panics where an addition overflows, or wraps
variable (overflowChecks : Bool)

/-- `slot + n` -/
def addSlot (slot : Slot) (n : U64) : Outcome Empty Slot :=
  match slot.checkedAdd n with
  | some sum => pure sum
  | none =>
    if overflowChecks then .panic "attempt to add with overflow" else pure (slot.wrappingAdd n)

/-- Without a value where the start of the next slot is not representable. -/
def computeTimeUntilNextSlotChange (paraSlotDuration : SlotDuration) (timeNow timeOffset : Duration)
    (lastReportedSlot : Slot) : Outcome Empty (Option (Duration × Slot)) := do
  let now := timeNow.saturatingSub timeOffset
  let nextSlot ← addSlot overflowChecks lastReportedSlot (.lit 1)
  match nextSlot.timestamp paraSlotDuration with
  | none => pure none
  | some nextSlotTimestamp =>
    let remainingTime := (Duration.fromMillis nextSlotTimestamp).saturatingSub now
    pure (some (remainingTime, nextSlot))

def adjustAuthoringDuration (authoringDuration : Duration)
    (nextBlock nextSlotChange : Duration × Slot) (differentAuthors : Bool) : Option Duration :=
  let (duration, _) := nextBlock
  let (durationUntilNextSlot, _) := nextSlotChange
  -- The authoring of blocks must stop 1 second before the slot ends.
  let durationUntilDeadline := durationUntilNextSlot.saturatingSub blockProductionAdjustmentMs
  if durationUntilDeadline = 0 then
    if differentAuthors then none else some (min authoringDuration duration)
  else if differentAuthors ∧ durationUntilDeadline ≤ authoringDuration then
    let authoringDuration := durationUntilDeadline
    if authoringDuration <
        blockProductionMinimumIntervalMs.saturatingSub blockProductionThresholdMs then none
    else some (min authoringDuration duration)
  else some (min authoringDuration duration)

structure SlotTimer where
  timeOffset : Duration
  lastReportedCoreNum : Option U32
  relaySlotDuration : Duration
  paraSlotDuration : Option Duration
  lastReportedSlot : Option Slot
deriving DecidableEq

namespace SlotTimer

def newWithOffset (timeOffset relaySlotDuration : Duration) (paraSlotDuration : Option Duration) :
    SlotTimer :=
  ⟨timeOffset, none, relaySlotDuration, paraSlotDuration, none⟩

variable (timer : SlotTimer)

def slotDuration : Duration := timer.paraSlotDuration.getD timer.relaySlotDuration

/-- `SlotDuration::from_millis(self.slot_duration().as_millis() as u64)` -/
def slotDurationMillis : SlotDuration := asU64 timer.slotDuration.asMillis

/-- `duration_now()` reads `timeNow`. -/
def timeUntilNextBlock (slotDuration : SlotDuration) (timeNow : Duration) :
    Outcome Empty (Duration × Slot) :=
  computeNextWakeUpTime slotDuration timer.relaySlotDuration timer.lastReportedCoreNum timeNow
    timer.timeOffset

/-- `duration_now()` reads `timeNow`. -/
def timeUntilNextSlotChange (slotDuration : SlotDuration) (timeNow : Duration) :
    Outcome Empty (Option (Duration × Slot)) :=
  computeTimeUntilNextSlotChange overflowChecks slotDuration timeNow timer.timeOffset
    (timer.lastReportedSlot.getD 0)

/-- `SlotTimer::adjust_authoring_duration`, where the clock is read at `timeNow` and then at
`timeThen`. -/
def adjustAuthoringDuration (timeNow timeThen authoringDuration : Duration) :
    Outcome Empty (Option Duration) := do
  let nextBlock ← timer.timeUntilNextBlock timer.slotDurationMillis timeNow
  let nextSlotChange ←
    timer.timeUntilNextSlotChange overflowChecks timer.slotDurationMillis timeThen
  match nextSlotChange with
  | none => pure (some authoringDuration)
  | some nextSlotChange =>
    let differentAuthors := true
    pure (SlotBased.adjustAuthoringDuration authoringDuration nextBlock nextSlotChange
      differentAuthors)

/-- `update_scheduling` -/
def updateScheduling (numCoresNextBlock : U32) : Call SlotTimer Empty Unit :=
  Call.modify fun timer => { timer with lastReportedCoreNum := some numCoresNextBlock }

/-- The slot after the last reported one, where that is to be reported without a sleep: the slot
computed from the clock is further ahead, but not so far that the node must have been halted. -/
def catchUp (lastReportedSlot : Option Slot) (nextParaSlot : Slot) : Outcome Empty (Option Slot) :=
  match lastReportedSlot with
  | none => pure none
  | some ls => do
    let successor ← addSlot overflowChecks ls (.lit 1)
    if successor < nextParaSlot then do
      let limit ← addSlot overflowChecks ls (.lit 3)
      pure (if nextParaSlot ≤ limit then some successor else none)
    else pure none

/-- `self.last_reported_slot = Some(next_para_slot)` -/
def report (nextParaSlot : Slot) : Call SlotTimer Empty Unit :=
  Call.modify fun timer => { timer with lastReportedSlot := some nextParaSlot }

/-- `wait_until_next_slot`, where `duration_now()` reads `timeNow`. It answers how long it slept,
if it did. -/
def waitUntilNextSlot (timeNow : Duration) : Call SlotTimer Empty (Option Duration) := do
  let timer ← Call.get
  let (timeUntilNextAttempt, nextParaSlot) ←
    Call.lift (timer.timeUntilNextBlock timer.slotDurationMillis timeNow)
  let successor ← Call.lift (catchUp overflowChecks timer.lastReportedSlot nextParaSlot)
  match successor with
  | some successor => do
    report successor
    pure none
  | none => do
    report nextParaSlot
    pure (some timeUntilNextAttempt)

end SlotTimer

section Runs

inductive Op where
  /-- The collator waits, from the time `timeNow` on. -/
  | waitUntilNextSlot (timeNow : Duration)
  | updateScheduling (numCoresNextBlock : U32)

/-- What the operation answers is how long it slept. -/
def Op.run : Op → Call SlotTimer Empty (Option Duration)
  | .waitUntilNextSlot timeNow => SlotTimer.waitUntilNextSlot overflowChecks timeNow
  | .updateScheduling numCoresNextBlock => do
    SlotTimer.updateScheduling numCoresNextBlock
    pure none

/-- A new slot timer as a machine. -/
def machine (timeOffset relaySlotDuration : Duration) (paraSlotDuration : Option Duration) :
    Machine SlotTimer Op (Outcome Empty (Option Duration)) where
  genesis timer := timer = .newWithOffset timeOffset relaySlotDuration paraSlotDuration
  exec timer op := op.run overflowChecks timer

abbrev RunEvent := Machine.Event SlotTimer Op (Outcome Empty (Option Duration))

/-- The slot that an event reported. -/
def reportedSlot (e : RunEvent) : Option Slot :=
  match e.op, e.answer with
  | .waitUntilNextSlot _, .ok _ => e.after.lastReportedSlot
  | _, _ => none

/-- The earliest time, in nanoseconds, that a clock which never goes back and goes on by what is
slept can read after the history. -/
def earliest : List RunEvent → ℕ
  | [] => 0
  | e :: h =>
    match e.op, e.answer with
    | .waitUntilNextSlot timeNow, .ok (some slept) => timeNow.val + slept.val
    | .waitUntilNextSlot timeNow, _ => timeNow.val
    | .updateScheduling _, _ => earliest h

/-- The clock is never below the offset, never goes back, and goes on by what is slept. -/
def ClockAllows (h : List RunEvent) (timer : SlotTimer) : Op → Prop
  | .waitUntilNextSlot timeNow => timer.timeOffset ≤ timeNow ∧ earliest h ≤ timeNow.val
  | .updateScheduling _ => True

instance (h : List RunEvent) (timer : SlotTimer) : ∀ op, Decidable (ClockAllows h timer op)
  | .waitUntilNextSlot _ => inferInstanceAs (Decidable (_ ∧ _))
  | .updateScheduling _ => inferInstanceAs (Decidable True)

end Runs

end Build

end SlotBased

end Moonkit
