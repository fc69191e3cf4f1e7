import Moonkit.SlotBased
import Moonkit.Proofs.Velocity

/-!
# Slot durations

A slot-based collator turns the relay slot `r` into the parachain slot `r * R / P`, for a relay slot
duration `R` and a parachain slot duration `P`. The runtime stores the relay slot itself: it
compares the timestamp with it and answers `can_build_upon` by it. So the collator and the runtime
speak of the same slot only where `r * R / P = r`.
-/

namespace Moonkit

open AsyncBacking NimbusConsensus

variable {Hash : Type} {r : Slot} {P : SlotDuration}

section Adjust

/-- What the parachain slot and its timestamp are, where they are derived at all. -/
theorem adjust_eq_ok {R : Duration} {info : SlotInfo} :
    adjustParaToRelayParentSlot (some r) R P = .ok (some info) ↔
      r.val * (R % 2 ^ 64) < 2 ^ 64 ∧ 0 < P.val ∧
        info.slot.val = r.val * (R % 2 ^ 64) / P.val ∧
        info.timestamp.val = P.val * info.slot.val := by
  unfold adjustParaToRelayParentSlot
  rw [Option.bind_some]
  rcases ht : r.timestamp R.asU64 with _ | timestamp
  · simp only [pure, Outcome.ok.injEq, reduceCtorEq, false_iff, not_and]
    intro hlt
    have hle : R.asU64.val * r.val ≤ 2 ^ 64 - 1 := by
      rw [Nat.mul_comm]
      exact Nat.le_sub_one_of_lt hlt
    have hsome : r.timestamp R.asU64 = some ⟨_, hle⟩ := Uint.checkedMul_eq_some.2 rfl
    rw [hsome] at ht
    cases ht
  · have hval : timestamp.val = r.val * (R % 2 ^ 64) :=
      (Uint.checkedMul_eq_some.1 ht).trans (Nat.mul_comm _ _)
    have hlt : r.val * (R % 2 ^ 64) < 2 ^ 64 := by
      have := timestamp.le_max
      omega
    simp only [Outcome.bind_eq_ok, Outcome.expect_eq_ok, pure, Outcome.ok.injEq,
      Option.map_eq_some_iff]
    constructor
    · rintro ⟨newSlot, hslot, ts, hts, rfl⟩
      obtain ⟨hP, hdiv⟩ := Uint.checkedDiv_eq_some.1 hslot
      exact ⟨hlt, hP, hval ▸ hdiv, Uint.checkedMul_eq_some.1 hts⟩
    · rintro ⟨-, hP, hslot, hts⟩
      exact ⟨info.slot, Uint.checkedDiv_eq_some.2 ⟨hP, hval ▸ hslot⟩, info.timestamp,
        Uint.checkedMul_eq_some.2 hts, rfl⟩

end Adjust

section Timestamp

variable {R : U32}

/-- The state after the relay slot `r` of a collator's block was stored as its `k`-th block, in a
runtime with `ParaSlot` whose slot provider gives what the collator computed. -/
def builtIn (s : AsyncBacking.State Hash) (r : Slot) (k : U32) (R : U32) (P : SlotDuration)
    (info : SlotInfo) : AsyncBacking.State Hash :=
  { s with
    slotInfo := some (r, k)
    env := { s.env with
      getAndVerifySlot := paraSlot R (info.slot, P)
      slotDuration := P
      now := info.timestamp } }

theorem fromTimestamp_relay (hP : 0 < P.val) (hprod : r.val * R.val < 2 ^ 64) {slot : Slot}
    (hslot : slot.val = r.val * R.val / P.val) :
    Slot.fromTimestamp ((U64.ofU32 R).saturatingMul r) P = some slot := by
  refine Uint.checkedDiv_eq_some.2 ⟨hP, ?_⟩
  rw [hslot, Uint.saturatingMul_val, show (U64.ofU32 R).val = R.val from rfl, Nat.mul_comm R.val,
    Nat.min_eq_left (Nat.le_sub_one_of_lt hprod)]

theorem checkParaSlot_builtIn {hook : Hook} {s : AsyncBacking.State Hash} {info : SlotInfo}
    (hP : 0 < P.val) (hprod : r.val * hook.relayChainSlotDurationMillis.val < 2 ^ 64)
    (hslot : info.slot.val = r.val * hook.relayChainSlotDurationMillis.val / P.val)
    (hget : s.env.getAndVerifySlot = paraSlot hook.relayChainSlotDurationMillis (info.slot, P))
    (hdur : s.env.slotDuration = P) : ∃ answer, hook.checkParaSlot r s = (.ok answer, s) := by
  have hfrom := fromTimestamp_relay hP hprod hslot
  have hpara : paraSlot hook.relayChainSlotDurationMillis (info.slot, P) r = .ok info.slot := by
    unfold paraSlot
    simp only [hfrom]
    show (if info.slot = info.slot then _ else _) = _
    rw [if_pos rfl]
    rfl
  have hlift : (Call.lift ((s.env.getAndVerifySlot r).expectOk "slot number mismatch")
      : PalletCall Hash Slot) s = (.ok info.slot, s) := by
    rw [hget, hpara]
    rfl
  unfold Hook.checkParaSlot
  rw [Call.get_bind, Call.bind_ok hlift, hdur, hfrom, Call.expect_some, Call.pure_bind_apply,
    Call.assert_bind, if_pos (le_refl _)]
  exact ⟨_, rfl⟩

theorem postInherents_iff {s : AsyncBacking.State Hash} {slot : Slot} {k : U32}
    (timestampSlot : Slot) (hs : s.slotInfo = some (slot, k)) (hdur : 0 < s.env.slotDuration.val)
    (hnow : s.env.now.val = s.env.slotDuration.val * timestampSlot.val) :
    postInherents s = (.ok (), s) ↔ timestampSlot = slot := by
  have hne : s.env.slotDuration ≠ 0 := fun h0 => by simp [h0] at hdur
  have hdiv : s.env.now.checkedDiv s.env.slotDuration = some timestampSlot := by
    refine Uint.checkedDiv_eq_some.2 ⟨hdur, ?_⟩
    rw [hnow, Nat.mul_div_cancel_left _ hdur]
  unfold postInherents
  rw [Call.get_bind, Call.assert_bind, if_pos hne, hdiv, Call.expect_some, Call.pure_bind_apply, hs,
    Call.expect_some, Call.pure_bind_apply]
  show (Call.assert (slot = timestampSlot) _ : PalletCall Hash Unit) s = _ ↔ _
  unfold Call.assert
  split_ifs with heq
  · simp [heq]
  · simp [Call.panic, Ne.symm heq]

/-- **Timestamps.** The block that a collator builds in relay slot `r`, with the timestamp of the
parachain slot it derived, passes the rest of the hook's checks; its timestamp is the one that
`post_inherents` expects exactly when the parachain slot is the relay slot. -/
theorem collator_timestamp_passes_iff (hook : Hook) (s : AsyncBacking.State Hash) (r : Slot)
    (k : U32) (P : SlotDuration) (hP : 0 < P.val)
    (hprod : r.val * hook.relayChainSlotDurationMillis.val < 2 ^ 64) :
    ∃ info, adjustParaToRelayParentSlot (some r) hook.relayChainSlotDurationMillis.val P
        = .ok (some info) ∧
      (∃ answer, hook.checkParaSlot r (builtIn s r k hook.relayChainSlotDurationMillis P info)
        = (.ok answer, builtIn s r k hook.relayChainSlotDurationMillis P info)) ∧
      (postInherents (builtIn s r k hook.relayChainSlotDurationMillis P info)
        = (.ok (), builtIn s r k hook.relayChainSlotDurationMillis P info) ↔
          r.val * hook.relayChainSlotDurationMillis.val / P.val = r.val) := by
  set R := hook.relayChainSlotDurationMillis with hR
  have hslot : r.val * R.val / P.val ≤ 2 ^ 64 - 1 :=
    (Nat.div_le_self _ _).trans (Nat.le_sub_one_of_lt hprod)
  have htime : P.val * (r.val * R.val / P.val) ≤ 2 ^ 64 - 1 :=
    (Nat.mul_div_le _ _).trans (Nat.le_sub_one_of_lt hprod)
  have hmod : R.val % 2 ^ 64 = R.val := Nat.mod_eq_of_lt (lt_of_le_of_lt R.le_max (by decide))
  refine ⟨⟨⟨_, htime⟩, ⟨_, hslot⟩⟩, ?_, ?_, ?_⟩
  · rw [adjust_eq_ok, hmod]
    exact ⟨hprod, hP, rfl, rfl⟩
  · exact checkParaSlot_builtIn hP hprod rfl rfl rfl
  · have hpost := postInherents_iff (s := builtIn s r k R P ⟨⟨_, htime⟩, ⟨_, hslot⟩⟩)
      ⟨_, hslot⟩ rfl hP rfl
    rw [hpost]
    exact ⟨fun heq => congrArg Uint.val heq, fun heq => Uint.ext_val heq⟩

theorem collator_timestamp_passes_equal_durations :
    ∃ info, adjustParaToRelayParentSlot (some (.lit 7)) 6000 (.lit 6000) = .ok (some info) ∧
      postInherents (builtIn (testGenesis true) (.lit 7) (.lit 1) (.lit 6000) (.lit 6000) info)
        = (.ok (), builtIn (testGenesis true) (.lit 7) (.lit 1) (.lit 6000) (.lit 6000) info) := by
  obtain ⟨info, hinfo, -, hpost⟩ := collator_timestamp_passes_iff testHook (testGenesis true)
    (.lit 7) (.lit 1) (.lit 6000) (by decide) (by decide)
  exact ⟨info, hinfo, hpost.2 (by decide)⟩

/-- With parachain slots twice as long as relay slots, the block in relay slot 1 has the timestamp
of parachain slot 0: the hook takes it and `post_inherents` refuses it. -/
theorem longer_para_slot_refused :
    adjustParaToRelayParentSlot (some (.lit 1)) 6000 (.lit 12000) = .ok (some ⟨0, 0⟩) ∧
      (testHook.onStateProofInner (.lit 1)
        { builtIn (testGenesis true) (.lit 1) (.lit 1) (.lit 6000) (.lit 12000) ⟨0, 0⟩ with
          slotInfo := none }).1.isPanic = false ∧
      (postInherents (builtIn (testGenesis true) (.lit 1) (.lit 1) (.lit 6000) (.lit 12000)
        ⟨0, 0⟩)).1.isPanic = true := by
  refine ⟨?_, ?_, ?_⟩ <;> decide +kernel

end Timestamp

section Question

variable {hook : Hook} {last : Slot} {authored : U32}

/-- The first slot in which the runtime would take another block. -/
def AsyncBacking.Hook.firstOpen (hook : Hook) (last : Slot) (authored : U32) : ℕ :=
  if authored ≤ hook.velocityOrOne ∧ hook.velocity.val < 2 ^ 32 - 1 then last.val else last.val + 1

theorem canBuildUpon_iff {s : AsyncBacking.State Hash} {included : Hash} {slot : Slot}
    (hs : s.slotInfo = some (last, authored)) :
    hook.canBuildUpon s included slot = .ok true ↔
      s.env.unincludedSegmentSizeAfter included < hook.capacity ∧
        hook.firstOpen last authored ≤ slot.val := by
  unfold Hook.firstOpen
  by_cases hsame : last = slot
  · subst hsame
    by_cases hV : hook.velocity.val < 2 ^ 32 - 1
    · rw [canBuildUpon_same hV hs]
      refine and_congr_right fun _ => ?_
      split_ifs with hopen
      · exact ⟨fun _ => le_refl _, fun _ => hopen.1⟩
      · exact ⟨fun hle => absurd ⟨hle, hV⟩ hopen, fun hle => absurd hle (Nat.not_succ_le_self _)⟩
    · rw [if_neg fun hopen => hV hopen.2]
      exact ⟨fun hyes => absurd hyes (canBuildUpon_overflow hV hs),
        fun hle => absurd hle.2 (Nat.not_succ_le_self _)⟩
  · have hne : last.val ≠ slot.val := fun heq => hsame (Uint.ext_val heq)
    rw [canBuildUpon_other hs hsame]
    refine and_congr_right fun _ => ?_
    rw [Uint.lt_iff_val]
    split_ifs <;> omega

variable [DecidableEq Hash]

/-- What the collator gets from the runtime when its parent is not the included block. -/
theorem canBuildUpon_client {stateAt : Hash → AsyncBacking.State Hash} {author : NimbusId}
    {paraSlot relaySlot : Slot} {timestamp : Timestamp} {parentHash included : Hash}
    (hne : parentHash ≠ included) :
    (NimbusConsensus.canBuildUpon (runtimeApi hook stateAt) (.ok (some author)) paraSlot relaySlot
      timestamp parentHash included).isSome = true ↔
      hook.canBuildUpon (stateAt parentHash) included paraSlot = .ok true := by
  have hversion : ¬ (Uint.lit 1 : U32) < .lit 1 := lt_irrefl _
  unfold NimbusConsensus.canBuildUpon runtimeApi
  simp only [Except.toOption, Option.join_some, Option.bind_eq_bind, Option.bind_some, if_neg hne,
    if_neg hversion]
  rcases hook.canBuildUpon (stateAt parentHash) included paraSlot with verdict | e | m
  · cases verdict <;> simp
  · simp
  · simp

/-- **The slot asked about.** The collator's question about the parachain slot that it derives from
the relay slot `r` is answered as one about `r` would be, exactly when no slot is stored, or the
unincluded segment is full, or both slots are open or neither is. -/
theorem collator_asks_relay_slot_iff (hook : Hook) (stateAt : Hash → AsyncBacking.State Hash)
    (author : NimbusId) (r : Slot) (R : Duration) (P : SlotDuration) (info : SlotInfo)
    (parentHash included : Hash) (hne : parentHash ≠ included)
    (hinfo : adjustParaToRelayParentSlot (some r) R P = .ok (some info)) :
    ((NimbusConsensus.canBuildUpon (runtimeApi hook stateAt) (.ok (some author)) info.slot r
        info.timestamp parentHash included).isSome = true ↔
      hook.canBuildUpon (stateAt parentHash) included r = .ok true) ↔
    ∀ last authored, (stateAt parentHash).slotInfo = some (last, authored) →
      hook.capacity ≤ (stateAt parentHash).env.unincludedSegmentSizeAfter included ∨
      (hook.firstOpen last authored ≤ r.val * (R % 2 ^ 64) / P.val ↔
        hook.firstOpen last authored ≤ r.val) := by
  obtain ⟨-, -, hslot, -⟩ := adjust_eq_ok.1 hinfo
  rw [canBuildUpon_client hne, ← hslot]
  set s := stateAt parentHash
  rcases hs : s.slotInfo with _ | ⟨last, authored⟩
  · have htrue : ∀ slot, hook.canBuildUpon s included slot = .ok true := by
      intro slot
      unfold Hook.canBuildUpon
      simp only [hs]
      rfl
    simp [htrue]
  · rw [canBuildUpon_iff hs, canBuildUpon_iff hs]
    constructor
    · rintro hsame last' authored' ⟨⟩
      rcases le_or_gt hook.capacity (s.env.unincludedSegmentSizeAfter included) with hfull | hroom
      · exact .inl hfull
      · exact .inr ⟨fun hle => (hsame.1 ⟨hroom, hle⟩).2, fun hle => (hsame.2 ⟨hroom, hle⟩).2⟩
    · intro hcond
      refine and_congr_right fun hroom => ?_
      exact (hcond last authored rfl).resolve_left (not_le_of_gt hroom)

/-- Every block has the state after two blocks in relay slot 1. -/
def testStateAt : ℕ → AsyncBacking.State ℕ := fun _ => (testBlocks true [.lit 1, .lit 1]).2

theorem collator_asks_relay_slot_equal_durations :
    (NimbusConsensus.canBuildUpon (runtimeApi testHook testStateAt)
        (.ok (some (Vector.replicate 32 1))) (.lit 2) (.lit 2) (.lit 12000) 1 0).isSome = true ↔
      testHook.canBuildUpon (testStateAt 1) 0 (.lit 2) = .ok true := by
  refine (collator_asks_relay_slot_iff testHook testStateAt (Vector.replicate 32 1) (.lit 2) 6000
    (.lit 6000) ⟨.lit 12000, .lit 2⟩ 1 0 (by decide) (by decide +kernel)).2 ?_
  exact fun last authored _ => .inr Iff.rfl

/-- With parachain slots half as long as relay slots, the collator asks about slot 2 where the
relay slot is 1 and has no room left. -/
theorem shorter_para_slot_misasked :
    Machine.Run (machine ℕ ℕ testHook) (fun _ s op => Completes testHook s op)
      (testBlocks true [.lit 1, .lit 1]).1 (testStateAt 1) ∧
    adjustParaToRelayParentSlot (some (.lit 1)) 6000 (.lit 3000)
      = .ok (some ⟨.lit 6000, .lit 2⟩) ∧
    (NimbusConsensus.canBuildUpon (runtimeApi testHook testStateAt)
      (.ok (some (Vector.replicate 32 1))) (.lit 2) (.lit 1) (.lit 6000) 1 0).isSome = true ∧
    testHook.canBuildUpon (testStateAt 1) 0 (.lit 1) = .ok false := by
  refine ⟨Machine.run_replay _ (.start rfl) ?_, ?_, ?_, ?_⟩ <;> decide +kernel

end Question

end Moonkit
