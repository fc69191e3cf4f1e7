import Moonkit.AsyncBacking

/-!
# Velocity

The hook takes a relay slot if it is later than the stored one, or the same while more blocks may
be built in it. So along every run the stored counter is the number of blocks accepted in the
stored slot, and nothing is refused that the bounds would allow. `can_build_upon` looks at the slot,
the counter and the unincluded segment but not at `AllowMultipleBlocksPerSlot`.
-/

namespace Moonkit

namespace AsyncBacking

variable {Hash AccountId : Type} {hook : Hook} {s s' : State Hash} {slot : Slot}

/-- The number of blocks that the pallet has counted in a slot. -/
def State.authoredIn (s : State Hash) (slot : Slot) : U32 :=
  match s.slotInfo with
  | some (last, authored) => if last = slot then authored else 0
  | none => 0

/-- The slot and velocity checks let another block in. -/
def Hook.Takes (hook : Hook) (s : State Hash) (slot : Slot) : Prop :=
  ∀ last authored, s.slotInfo = some (last, authored) → last < slot ∨
    last = slot ∧ s.env.allowMultipleBlocksPerSlot = true ∧ authored ≤ hook.velocityOrOne

theorem checkVelocity_of_takes (ht : hook.Takes s slot) :
    hook.checkVelocity slot s = (.ok (s.authoredIn slot), s) ∧
      s.authoredIn slot ≤ hook.velocityOrOne := by
  have hzero : (0 : U32) ≤ hook.velocityOrOne := Nat.zero_le _
  unfold Hook.checkVelocity State.authoredIn
  rw [Call.get_bind]
  rcases hs : s.slotInfo with _ | ⟨last, authored⟩
  · simp only [Call.pure_bind_apply, Call.assert_bind, if_pos hzero]
    exact ⟨rfl, hzero⟩
  · rcases ht last authored hs with hlt | ⟨rfl, hallow, hle⟩
    · simp only [if_neg (ne_of_lt hlt), if_pos hlt, Call.pure_bind_apply, Call.assert_bind,
        if_pos hzero]
      exact ⟨rfl, hzero⟩
    · simp only [if_true]
      refine ⟨?_, hle⟩
      have hinner : (Call.assert (s.env.allowMultipleBlocksPerSlot = true)
          "Block invalid; Supplied slot number is not high enough" >>= fun _ => pure authored
            : PalletCall Hash U32) s = (.ok authored, s) := by
        rw [Call.assert_bind, if_pos hallow]
        rfl
      rw [Call.bind_ok hinner, Call.assert_bind, if_pos hle]
      rfl

theorem checkVelocity_of_not_takes (ht : ¬ hook.Takes s slot) :
    ∃ m, hook.checkVelocity slot s = (.panic m, s) := by
  unfold Hook.Takes at ht
  push Not at ht
  obtain ⟨last, authored, hs, hle, hsame⟩ := ht
  unfold Hook.checkVelocity
  rw [Call.get_bind, hs]
  simp only
  split_ifs with heq hlt
  · rcases hallow : s.env.allowMultipleBlocksPerSlot with _ | _
    · exact ⟨_, Call.bind_panic rfl⟩
    · have hinner : (Call.assert (true = true)
          "Block invalid; Supplied slot number is not high enough" >>= fun _ => pure authored
            : PalletCall Hash U32) s = (.ok authored, s) := rfl
      rw [Call.bind_ok hinner, Call.assert_bind, if_neg (not_le_of_gt (hsame heq hallow))]
      exact ⟨_, rfl⟩
  · exact absurd hlt (not_lt_of_ge hle)
  · exact ⟨_, Call.bind_panic rfl⟩

theorem checkVelocity_isPanic :
    (hook.checkVelocity slot s).1.isPanic = false ↔ hook.Takes s slot := by
  by_cases ht : hook.Takes s slot
  · rw [(checkVelocity_of_takes ht).1]
    simp [Outcome.isPanic, ht]
  · obtain ⟨m, hm⟩ := checkVelocity_of_not_takes ht
    rw [hm]
    simp [Outcome.isPanic, ht]

section Prediction

variable {last : Slot} {authored : U32} {included : Hash}

theorem velocityOrOne_val : hook.velocityOrOne.val = max hook.velocity.val 1 := Uint.val_max _ _

theorem velocityOrOne_lt (hV : hook.velocity.val < 2 ^ 32 - 1) :
    hook.velocityOrOne.val < 2 ^ 32 - 1 := by
  rw [velocityOrOne_val]
  omega

theorem canBuildUpon_same (hV : hook.velocity.val < 2 ^ 32 - 1)
    (hs : s.slotInfo = some (slot, authored)) :
    hook.canBuildUpon s included slot = .ok true ↔
      s.env.unincludedSegmentSizeAfter included < hook.capacity
        ∧ authored ≤ hook.velocityOrOne := by
  have hlt := velocityOrOne_lt hV
  have hadd : hook.velocityOrOne.checkedAdd (.lit 1)
      = some ⟨hook.velocityOrOne.val + 1, by omega⟩ := Uint.checkedAdd_eq_some.2 rfl
  unfold Hook.canBuildUpon
  simp only [hs, hadd, if_true]
  split_ifs with hfull
  · simp [pure, not_lt_of_ge hfull]
  · show Outcome.ok (decide (authored < _)) = .ok true ↔ _
    simp only [Outcome.ok.injEq, decide_eq_true_eq, not_le.1 hfull, true_and, Uint.lt_iff_val,
      Uint.le_iff_val]
    omega

/-- With the largest velocity of all, the bound on the blocks in a slot overflows. -/
theorem canBuildUpon_overflow (hV : ¬ hook.velocity.val < 2 ^ 32 - 1)
    (hs : s.slotInfo = some (slot, authored)) :
    hook.canBuildUpon s included slot ≠ .ok true := by
  have hnone : hook.velocityOrOne.checkedAdd (.lit 1) = none := by
    rcases hadd : hook.velocityOrOne.checkedAdd (.lit 1) with _ | limit
    · rfl
    · have hval : limit.val = hook.velocityOrOne.val + 1 := Uint.checkedAdd_eq_some.1 hadd
      have hmax := limit.le_max
      rw [velocityOrOne_val] at hval
      omega
  unfold Hook.canBuildUpon
  simp only [hs, hnone, if_true]
  split_ifs
  · simp [pure]
  · show Outcome.panic _ ≠ .ok true
    simp

theorem canBuildUpon_other (hs : s.slotInfo = some (last, authored)) (hne : last ≠ slot) :
    hook.canBuildUpon s included slot = .ok true ↔
      s.env.unincludedSegmentSizeAfter included < hook.capacity ∧ last < slot := by
  unfold Hook.canBuildUpon
  simp only [hs, if_neg hne]
  split_ifs with hfull
  · simp [pure, not_lt_of_ge hfull]
  · show Outcome.ok (decide (last < slot)) = .ok true ↔ _
    simp [not_le.1 hfull]

/-- **Prediction.** That a block may be built predicts that the slot and velocity checks let it in,
exactly when several blocks are allowed in a slot, or the slot is not the stored one, or building
is refused for another reason. -/
theorem can_build_upon_predicts_iff (hook : Hook) (s : State Hash) (included : Hash) (slot : Slot)
    (hV : hook.velocity.val < 2 ^ 32 - 1) :
    (hook.canBuildUpon s included slot = .ok true →
      (hook.checkVelocity slot s).1.isPanic = false) ↔
    (s.env.allowMultipleBlocksPerSlot = true ∨ ∀ authored, s.slotInfo = some (slot, authored) →
      hook.capacity ≤ s.env.unincludedSegmentSizeAfter included
        ∨ hook.velocityOrOne < authored) := by
  rw [checkVelocity_isPanic]
  constructor
  · intro himp
    rcases hallow : s.env.allowMultipleBlocksPerSlot with _ | _
    · refine .inr fun authored hs => ?_
      by_contra hcon
      push Not at hcon
      rcases himp ((canBuildUpon_same hV hs).2 hcon) slot authored hs with hlt | ⟨-, hyes, -⟩
      · exact lt_irrefl _ hlt
      · simp [hallow] at hyes
    · exact .inl rfl
  · intro hcond hbuild last authored hs
    by_cases hsame : last = slot
    · subst hsame
      obtain ⟨hroom, hle⟩ := (canBuildUpon_same hV hs).1 hbuild
      rcases hcond with hallow | hrefused
      · exact .inr ⟨rfl, hallow, hle⟩
      · rcases hrefused authored hs with hfull | hmany
        · exact absurd hroom (not_lt_of_ge hfull)
        · exact absurd hle (not_le_of_gt hmany)
    · exact .inl ((canBuildUpon_other hs hsame).1 hbuild).2

section Mock

/-- The hook of the tests: relay slots of 6 seconds, velocity and capacity 1. -/
def testHook : Hook := ⟨.lit 6000, .lit 1, .lit 1⟩

/-- The mock runtime, with an empty unincluded segment. -/
def testEnv (allowMultipleBlocksPerSlot : Bool) : Env ℕ where
  allowMultipleBlocksPerSlot := allowMultipleBlocksPerSlot
  getAndVerifySlot := relaySlot
  slotDuration := .lit 6000
  dbWeight := ⟨.lit 1, .lit 10⟩
  now := 0
  unincludedSegmentSizeAfter := fun _ => 0

def testGenesis (allowMultipleBlocksPerSlot : Bool) : State ℕ :=
  ⟨none, .lit 1, testEnv allowMultipleBlocksPerSlot⟩

/-- The history and the state of blocks in the given relay slots. -/
def testBlocks (allowMultipleBlocksPerSlot : Bool) (slots : List Slot) :
    List (RunEvent ℕ ℕ) × State ℕ :=
  (machine ℕ ℕ testHook).replay [] (testGenesis allowMultipleBlocksPerSlot)
    (slots.map .onStateProofInner)

end Mock

theorem can_build_upon_predicts_iff_test :
    testHook.velocity.val < 2 ^ 32 - 1 ∧
      (testHook.checkVelocity (.lit 1) (testBlocks true [.lit 1]).2).1.isPanic = false := by
  refine ⟨by decide, (can_build_upon_predicts_iff testHook _ 0 (.lit 1) (by decide)).2 (.inl ?_) ?_⟩
  · rfl
  · decide +kernel

/-- After one block in slot 1, another one is predicted to be taken and is not. -/
theorem second_block_mispredicted :
    Machine.Run (machine ℕ ℕ testHook) (fun _ s op => Completes testHook s op)
      (testBlocks false [.lit 1]).1 (testBlocks false [.lit 1]).2 ∧
    testHook.canBuildUpon (testBlocks false [.lit 1]).2 0 (.lit 1) = .ok true ∧
    testHook.checkVelocity (.lit 1) (testBlocks false [.lit 1]).2
      = (.panic "Block invalid; Supplied slot number is not high enough",
        (testBlocks false [.lit 1]).2) := by
  refine ⟨Machine.run_replay _ (.start rfl) (by decide +kernel), by decide +kernel, rfl⟩

end Prediction

section Runs

theorem checkParaSlot_observes (hook : Hook) (slot : Slot) :
    Call.Observes (hook.checkParaSlot slot : PalletCall Hash _) := by
  unfold Hook.checkParaSlot
  refine .bind .get fun s => .bind (.lift_expectOk _ _) fun paraSlot => ?_
  refine .bind (.expect _ _) fun fromRelay => .bind (.assert _ _) fun _ => .pure _

theorem postInherents_observes : Call.Observes (postInherents : PalletCall Hash Unit) := by
  unfold postInherents
  refine .bind .get fun s => .bind (.assert _ _) fun _ => ?_
  exact .bind (.expect _ _) fun timestampSlot => .bind (.expect _ _) fun info => .assert _ _

/-- A relay slot is accepted only if the checks take it, and then it is stored with one more block
in it. -/
theorem onStateProofInner_cases (slot : Slot) (s : State Hash) :
    (∃ m s', hook.onStateProofInner slot s = (.panic m, s')) ∨
      hook.Takes s slot ∧ ∃ answer authored, authored.val = (s.authoredIn slot).val + 1 ∧
        hook.onStateProofInner slot s =
          (.ok answer, { s with slotInfo := some (slot, authored) }) := by
  unfold Hook.onStateProofInner
  by_cases ht : hook.Takes s slot
  · rw [Call.bind_ok (checkVelocity_of_takes ht).1]
    rcases hadd : (s.authoredIn slot).checkedAdd (.lit 1) with _ | authored
    · exact .inl ⟨_, _, rfl⟩
    · rw [Call.expect_some, Call.pure_bind_apply, Call.modify_bind]
      rcases checkParaSlot_observes hook slot { s with slotInfo := some (slot, authored) }
        with ⟨answer, hok⟩ | ⟨m, hm⟩
      · exact .inr ⟨ht, answer, authored, Uint.checkedAdd_eq_some.1 hadd, hok⟩
      · exact .inl ⟨m, _, hm⟩
  · obtain ⟨m, hm⟩ := checkVelocity_of_not_takes ht
    exact .inl ⟨m, s, Call.bind_panic hm⟩

variable {h : List (RunEvent Hash AccountId)}

theorem acceptedIn_cons (e : RunEvent Hash AccountId) (h : List (RunEvent Hash AccountId))
    (slot : Slot) :
    acceptedIn (e :: h) slot = acceptedIn h slot + if acceptedSlot e = some slot then 1 else 0 := by
  unfold acceptedIn
  rw [List.filterMap_cons]
  rcases acceptedSlot e with _ | slot'
  · simp
  · simp only [List.count_cons, beq_iff_eq, Option.some.injEq]

/-- What the stored slot and its counter say about the blocks accepted so far. -/
structure Counts (hook : Hook) (h : List (RunEvent Hash AccountId)) (s : State Hash) : Prop where
  counter : ∀ slot, (∀ last authored, s.slotInfo = some (last, authored) → last ≤ slot) →
    acceptedIn h slot = (s.authoredIn slot).val
  positive : ∀ last authored, s.slotInfo = some (last, authored) → 0 < authored.val
  bound : ∀ slot, acceptedIn h slot ≤ hook.velocityOrOne.val + 1
  single : ∀ slot, (∀ e ∈ h, acceptedSlot e = some slot →
    e.before.env.allowMultipleBlocksPerSlot = false) → acceptedIn h slot ≤ 1

theorem Counts.genesis (hs : s.slotInfo = none) :
    Counts hook ([] : List (RunEvent Hash AccountId)) s := by
  refine ⟨fun slot _ => ?_, by simp [hs], fun slot => Nat.zero_le _, fun slot _ => Nat.zero_le _⟩
  simp [acceptedIn, State.authoredIn, hs]

theorem Takes.le (ht : hook.Takes s slot) {last : Slot} {authored : U32}
    (hs : s.slotInfo = some (last, authored)) : last ≤ slot := by
  rcases ht last authored hs with hlt | ⟨rfl, -⟩
  · exact le_of_lt hlt
  · exact le_refl _

theorem authoredIn_of_lt (hlt : ∀ last authored, s.slotInfo = some (last, authored) → last < slot) :
    s.authoredIn slot = 0 := by
  unfold State.authoredIn
  rcases hs : s.slotInfo with _ | ⟨last, authored⟩
  · rfl
  · simp only [if_neg (ne_of_lt (hlt last authored hs))]

theorem Counts.accepted {e : RunEvent Hash AccountId} {authored : U32}
    (hi : Counts hook h e.before) (hslot : acceptedSlot e = some slot)
    (ht : hook.Takes e.before slot) (ha : authored.val = (e.before.authoredIn slot).val + 1)
    (hs' : e.after.slotInfo = some (slot, authored)) : Counts hook (e :: h) e.after := by
  have hold : acceptedIn h slot = (e.before.authoredIn slot).val :=
    hi.counter slot fun last authored hs => Takes.le ht hs
  have hnow : acceptedIn (e :: h) slot = acceptedIn h slot + 1 := by
    rw [acceptedIn_cons, if_pos hslot]
  have hother : ∀ slot', slot' ≠ slot → acceptedIn (e :: h) slot' = acceptedIn h slot' := by
    intro slot' hne
    rw [acceptedIn_cons, if_neg, Nat.add_zero]
    rw [hslot, Option.some.injEq]
    exact Ne.symm hne
  refine ⟨fun slot' hle => ?_, fun last authored' hs => ?_, fun slot' => ?_, fun slot' hall => ?_⟩
  · have hle' : slot ≤ slot' := hle slot authored hs'
    by_cases hsame : slot' = slot
    · subst hsame
      rw [hnow, hold, ← ha]
      simp [State.authoredIn, hs']
    · have hlt : slot < slot' := lt_of_le_of_ne hle' (Ne.symm hsame)
      have hzero : e.before.authoredIn slot' = 0 :=
        authoredIn_of_lt fun last authored hs => lt_of_le_of_lt (Takes.le ht hs) hlt
      rw [hother slot' hsame, hi.counter slot' fun last authored hs =>
        (Takes.le ht hs).trans hle', hzero]
      simp [State.authoredIn, hs', ne_of_lt hlt]
  · rw [hs', Option.some.injEq, Prod.mk.injEq] at hs
    rw [← hs.2, ha]
    exact Nat.succ_pos _
  · by_cases hsame : slot' = slot
    · subst hsame
      have hle := (checkVelocity_of_takes ht).2
      rw [Uint.le_iff_val] at hle
      omega
    · rw [hother slot' hsame]
      exact hi.bound slot'
  · by_cases hsame : slot' = slot
    · subst hsame
      have hno := hall e List.mem_cons_self hslot
      have hzero : e.before.authoredIn slot' = 0 := by
        refine authoredIn_of_lt fun last authored hs => ?_
        rcases ht last authored hs with hlt | ⟨-, hyes, -⟩
        · exact hlt
        · simp [hno] at hyes
      rw [hnow, hold, hzero]
      simp
    · rw [hother slot' hsame]
      exact hi.single slot' fun e' he' => hall e' (List.mem_cons_of_mem _ he')

theorem Counts.untouched {e : RunEvent Hash AccountId} (hi : Counts hook h e.before)
    (hslot : acceptedSlot e = none) (hs' : e.after.slotInfo = e.before.slotInfo) :
    Counts hook (e :: h) e.after := by
  have hsame : ∀ slot, acceptedIn (e :: h) slot = acceptedIn h slot := by
    intro slot
    rw [acceptedIn_cons, if_neg (by simp [hslot]), Nat.add_zero]
  refine ⟨fun slot hle => ?_, hs' ▸ hi.positive, fun slot => ?_, fun slot hall => ?_⟩
  · rw [hs'] at hle
    rw [hsame, hi.counter slot hle]
    simp only [State.authoredIn, hs']
  · rw [hsame]
    exact hi.bound slot
  · rw [hsame]
    exact hi.single slot fun e' he' => hall e' (List.mem_cons_of_mem _ he')

theorem Counts.stored {last : Slot} {authored : U32} (hi : Counts hook h s)
    (hs : s.slotInfo = some (last, authored)) : acceptedIn h last = authored.val := by
  rw [hi.counter last fun last' authored' hs' => ?_]
  · simp [State.authoredIn, hs]
  · rw [hs, Option.some.injEq, Prod.mk.injEq] at hs'
    exact ge_of_eq hs'.1

/-- The slot and velocity checks refuse a slot only for one of three reasons. -/
theorem Counts.refused (hi : Counts hook h s) (hp : ¬ hook.Takes s slot) :
    (∃ last authored, s.slotInfo = some (last, authored) ∧ slot < last) ∨
      hook.velocityOrOne.val < acceptedIn h slot ∨
      s.env.allowMultipleBlocksPerSlot = false ∧ 0 < acceptedIn h slot := by
  unfold Hook.Takes at hp
  push Not at hp
  obtain ⟨last, authored, hs, hle, hsame⟩ := hp
  rcases lt_or_eq_of_le hle with hlt | heq
  · exact .inl ⟨last, authored, hs, hlt⟩
  · subst heq
    have hcount := hi.stored hs
    rcases hallow : s.env.allowMultipleBlocksPerSlot with _ | _
    · exact .inr (.inr ⟨rfl, hcount ▸ hi.positive slot authored hs⟩)
    · exact .inr (.inl (hcount ▸ hsame rfl hallow))

variable [DecidableEq AccountId] {op : Op Hash AccountId}

/-- An operation that completes is accepted in a slot, or leaves the slot as it is. -/
theorem exec_cases (hc : Completes hook s op) :
    (∃ slot authored, acceptedSlot ((machine Hash AccountId hook).event s op) = some slot ∧
      hook.Takes s slot ∧ authored.val = (s.authoredIn slot).val + 1 ∧
      (op.run hook s).2 = { s with slotInfo := some (slot, authored) }) ∨
    acceptedSlot ((machine Hash AccountId hook).event s op) = none ∧
      (op.run hook s).2.slotInfo = s.slotInfo := by
  cases op with
  | onStateProofInner slot =>
    rcases onStateProofInner_cases slot s with ⟨m, s', hm⟩ | ⟨ht, answer, authored, ha, hok⟩
    · have hrun : (Op.onStateProofInner slot : Op Hash AccountId).run hook s = (.panic m, s') :=
        Call.bind_panic hm
      simp [Completes, hrun, Outcome.isPanic] at hc
    · have hrun : (Op.onStateProofInner slot : Op Hash AccountId).run hook s
          = (.ok (), { s with slotInfo := some (slot, authored) }) := Call.bind_ok hok
      refine .inl ⟨slot, authored, ?_, ht, ha, by rw [hrun]⟩
      simp [acceptedSlot, Machine.event, machine, hrun]
  | postInherents =>
    refine .inr ⟨rfl, ?_⟩
    rcases postInherents_observes s with ⟨a, ha⟩ | ⟨m, hm⟩
    · simp [Op.run, ha]
    · simp [Op.run, hm]
  | setRelayParentOffset origin new =>
    refine .inr ⟨rfl, ?_⟩
    simp only [Op.run, setRelayParentOffset, Call.ensure_bind]
    split_ifs <;> rfl
  | elsewhere env => exact .inr ⟨rfl, rfl⟩

theorem counts_of_run
    (hr : Machine.Run (machine Hash AccountId hook) (fun _ s op => Completes hook s op) h s) :
    Counts hook h s := by
  refine hr.invariant (Counts hook) (fun s hg => .genesis hg) fun h s op hr hi hc => ?_
  rcases exec_cases hc with ⟨slot, authored, hslot, ht, ha, hs'⟩ | ⟨hslot, hs'⟩
  · exact hi.accepted hslot ht ha (congrArg State.slotInfo hs')
  · exact hi.untouched hslot hs'

/-- **Velocity.** Along every run the stored slot never goes back, the slot of an accepted block is
stored with the number of blocks accepted in it, at most one more than the velocity and only one
where one is allowed; and the slot and velocity checks refuse a block only if the slot went back or
a bound is reached. -/
theorem blocks_within_velocity
    (hr : Machine.Run (machine Hash AccountId hook) (fun _ s op => Completes hook s op) h s) :
    (∀ e ∈ h, ∀ last authored, e.before.slotInfo = some (last, authored) →
      ∃ last' authored', e.after.slotInfo = some (last', authored') ∧ last ≤ last') ∧
    (∀ e h', h = e :: h' → ∀ slot, acceptedSlot e = some slot →
      ∃ authored, s.slotInfo = some (slot, authored) ∧ authored.val = acceptedIn h slot) ∧
    (∀ slot, acceptedIn h slot ≤ max hook.velocity.val 1 + 1) ∧
    (∀ slot, (∀ e ∈ h, acceptedSlot e = some slot →
      e.before.env.allowMultipleBlocksPerSlot = false) → acceptedIn h slot ≤ 1) ∧
    ∀ slot, (hook.checkVelocity slot s).1.isPanic = true →
      (∃ last authored, s.slotInfo = some (last, authored) ∧ slot < last) ∨
      max hook.velocity.val 1 + 1 < acceptedIn h slot + 1 ∨
      s.env.allowMultipleBlocksPerSlot = false ∧ 1 < acceptedIn h slot + 1 := by
  have hi := counts_of_run hr
  refine ⟨fun e he last authored hs => ?_, fun e h' heq slot hslot => ?_, fun slot => ?_, hi.single,
    fun slot hpanic => ?_⟩
  · obtain ⟨h', -, hc, hev⟩ := hr.mem_event he
    rw [hev]
    rcases exec_cases hc with ⟨slot, authored', -, ht, -, hs'⟩ | ⟨-, hs'⟩
    · exact ⟨slot, authored', congrArg State.slotInfo hs', Takes.le ht hs⟩
    · exact ⟨last, authored, hs'.trans hs, le_refl _⟩
  · subst heq
    cases hr with
    | step hr hc =>
      rcases exec_cases hc with ⟨slot', authored, hslot', ht, ha, hs'⟩ | ⟨hnone, -⟩
      · rw [hslot', Option.some.injEq] at hslot
        subst hslot
        have hstored := congrArg State.slotInfo hs'
        exact ⟨authored, hstored, (hi.stored hstored).symm⟩
      · simp [hnone] at hslot
  · rw [← velocityOrOne_val]
    exact hi.bound slot
  · have hnot : ¬ hook.Takes s slot := fun ht => by
      rw [checkVelocity_isPanic.2 ht] at hpanic
      exact absurd hpanic (by decide)
    rcases hi.refused hnot with hback | hmany | ⟨hno, hone⟩
    · exact .inl hback
    · rw [velocityOrOne_val] at hmany
      exact .inr (.inl (by omega))
    · exact .inr (.inr ⟨hno, by omega⟩)

theorem blocks_within_velocity_test :
    acceptedIn (testBlocks true [.lit 1, .lit 1, .lit 3]).1 (.lit 1) = 2 ∧
      ∀ slot, acceptedIn (testBlocks true [.lit 1, .lit 1, .lit 3]).1 slot ≤ 2 := by
  have hrun : Machine.Run (machine ℕ ℕ testHook) (fun _ s op => Completes testHook s op)
      (testBlocks true [.lit 1, .lit 1, .lit 3]).1 (testBlocks true [.lit 1, .lit 1, .lit 3]).2 :=
    Machine.run_replay _ (.start rfl) (by decide +kernel)
  exact ⟨by decide +kernel, (blocks_within_velocity hrun).2.2.1⟩

end Runs

end AsyncBacking

end Moonkit
