import Moonkit.Proofs.Velocity

/-!
# The capacity of the unincluded segment

`on_state_proof_inner` tells parachain-system a capacity of at least one. `can_build_upon` takes the
configured one, which may be zero: then it finds an empty segment full, so once a slot is stored it
never lets a block be built, although its documentation promises that it does after an empty
segment.
-/

namespace Moonkit

namespace AsyncBacking

variable {Hash : Type} {hook : Hook} {s : State Hash} {included : Hash} {slot : Slot}

namespace Hook

/-- The capacity that is handed to parachain-system. -/
def segmentCapacity (hook : Hook) : U32 := max hook.capacity (.lit 1)

/-- The test of `can_build_upon` that refuses for the segment, whatever the slot. -/
def SegmentFull (hook : Hook) (s : State Hash) (included : Hash) : Prop :=
  hook.capacity ≤ s.env.unincludedSegmentSizeAfter included

instance (hook : Hook) (s : State Hash) (included : Hash) :
    Decidable (hook.SegmentFull s included) :=
  inferInstanceAs (Decidable (_ ≤ _))

/-- The rest of `can_build_upon`, where a slot is stored. -/
def slotTest (hook : Hook) (lastSlot : Slot) (authoredSoFar : U32) (newSlot : Slot) :
    Outcome String Bool :=
  if lastSlot = newSlot then do
    let limit ← Outcome.expect (hook.velocityOrOne.checkedAdd (.lit 1))
      "attempt to add with overflow"
    pure (authoredSoFar < limit)
  else pure (lastSlot < newSlot)

theorem canBuildUpon_none (hs : s.slotInfo = none) :
    hook.canBuildUpon s included slot = .ok true := by
  unfold canBuildUpon
  rw [hs]
  rfl

theorem canBuildUpon_some {last : Slot} {authored : U32} (hs : s.slotInfo = some (last, authored)) :
    hook.canBuildUpon s included slot =
      if hook.SegmentFull s included then .ok false else hook.slotTest last authored slot := by
  unfold canBuildUpon
  rw [hs]
  rfl

theorem slotTest_newer {last : Slot} {authored : U32} (hlt : last < slot) :
    hook.slotTest last authored slot = .ok true := by
  unfold slotTest
  rw [if_neg (ne_of_lt hlt), decide_eq_true hlt]
  rfl

theorem onStateProofInner_capacity {s' : State Hash} {weight : Weight} {capacity : U32}
    (h : hook.onStateProofInner slot s = (.ok (weight, capacity), s')) :
    capacity = hook.segmentCapacity := by
  unfold onStateProofInner at h
  obtain ⟨_, _, -, hstored⟩ := Call.bind_eq_ok.1 h
  obtain ⟨_, -, hstored⟩ := Call.expect_bind_eq_ok.1 hstored
  rw [Call.modify_bind] at hstored
  unfold checkParaSlot at hstored
  rw [Call.get_bind] at hstored
  obtain ⟨_, _, -, hpara⟩ := Call.bind_eq_ok.1 hstored
  obtain ⟨_, -, hpara⟩ := Call.expect_bind_eq_ok.1 hpara
  obtain ⟨-, hanswer⟩ := Call.assert_bind_eq_ok.1 hpara
  exact (Prod.mk.inj (Outcome.ok.inj (Prod.mk.inj hanswer).1)).2.symm

theorem one_le_segmentCapacity (hook : Hook) : 1 ≤ hook.segmentCapacity.val :=
  Uint.le_iff_val.1 (le_max_right hook.capacity (.lit 1))

theorem segmentCapacity_of_ne (hC : hook.capacity ≠ 0) : hook.segmentCapacity = hook.capacity := by
  refine max_eq_left ?_
  rw [Uint.le_iff_val]
  have hval : hook.capacity.val ≠ 0 := fun h => hC (Uint.ext_val h)
  show 1 ≤ hook.capacity.val
  omega

theorem segmentCapacity_of_zero (hC : hook.capacity = 0) : hook.segmentCapacity = .lit 1 := by
  rw [segmentCapacity, hC]
  exact max_eq_right (Uint.le_iff_val.2 (Nat.zero_le 1))

end Hook

/-- What `can_build_upon` promises of a block and a slot: after an empty segment a newer slot is
taken, and where a slot is stored the segment is full exactly from the capacity on. -/
structure Promises (hook : Hook) (s : State Hash) (included : Hash) (slot : Slot) : Prop where
  empty : s.env.unincludedSegmentSizeAfter included = 0 →
    (∀ last authored, s.slotInfo = some (last, authored) → last < slot) →
    hook.canBuildUpon s included slot = .ok true
  full : s.slotInfo ≠ none → (hook.SegmentFull s included ↔
    hook.segmentCapacity ≤ s.env.unincludedSegmentSizeAfter included)

/-- **Capacity.** The capacity of `SegmentCapacity` is what every accepted slot is answered with,
and the refusal of a segment is the first test after a slot is stored. `can_build_upon` keeps its
promises, in every state and for every block and slot, if and only if the configured capacity is not
zero, or no slot is stored, or the segment after the block is not empty. -/
theorem can_build_upon_promises_iff (hook : Hook) (s : State Hash) (included : Hash) (slot : Slot) :
    (∀ slot' weight capacity s', hook.onStateProofInner slot' s = (.ok (weight, capacity), s') →
      capacity = hook.segmentCapacity) ∧
    (∀ last authored, s.slotInfo = some (last, authored) → hook.canBuildUpon s included slot =
      if hook.SegmentFull s included then .ok false else hook.slotTest last authored slot) ∧
    (Promises hook s included slot ↔ hook.capacity ≠ 0 ∨ s.slotInfo = none ∨
      s.env.unincludedSegmentSizeAfter included ≠ 0) := by
  refine ⟨fun _ _ _ _ h => Hook.onStateProofInner_capacity h,
    fun _ _ hs => Hook.canBuildUpon_some hs, ?_⟩
  constructor
  · intro hpromises
    by_contra hcon
    push Not at hcon
    obtain ⟨hC, hs, hempty⟩ := hcon
    have hfull : hook.SegmentFull s included := by
      unfold Hook.SegmentFull
      rw [hC, hempty]
    have hone := (hpromises.full hs).1 hfull
    rw [Hook.segmentCapacity_of_zero hC, hempty, Uint.le_iff_val] at hone
    exact absurd hone (by decide)
  · intro hcond
    have hfull (hs : s.slotInfo ≠ none) : hook.SegmentFull s included ↔
        hook.segmentCapacity ≤ s.env.unincludedSegmentSizeAfter included := by
      by_cases hC : hook.capacity = 0
      · have hsize : s.env.unincludedSegmentSizeAfter included ≠ 0 :=
          (hcond.resolve_left (not_not.2 hC)).resolve_left hs
        have hpos : (s.env.unincludedSegmentSizeAfter included).val ≠ 0 :=
          fun h => hsize (Uint.ext_val h)
        refine iff_of_true ?_ ?_
        · rw [Hook.SegmentFull, hC, Uint.le_iff_val]
          exact Nat.zero_le _
        · rw [Hook.segmentCapacity_of_zero hC, Uint.le_iff_val]
          show 1 ≤ _
          omega
      · rw [Hook.segmentCapacity_of_ne hC, Hook.SegmentFull]
    refine ⟨fun hempty hnewer => ?_, hfull⟩
    rcases hs : s.slotInfo with _ | ⟨last, authored⟩
    · exact Hook.canBuildUpon_none hs
    · have hroom : ¬ hook.SegmentFull s included := by
        rw [hfull (by simp [hs]), hempty, Uint.le_iff_val, not_le]
        exact Nat.lt_of_lt_of_le Nat.zero_lt_one hook.one_le_segmentCapacity
      rw [Hook.canBuildUpon_some hs, if_neg hroom]
      exact Hook.slotTest_newer (hnewer last authored hs)

/-- The hook of the tests with a capacity of zero. -/
def noCapacity : Hook := ⟨.lit 6000, .lit 1, 0⟩

/-- After a block in slot 1. -/
def builtOnce : List (RunEvent ℕ ℕ) × State ℕ :=
  (machine ℕ ℕ noCapacity).replay [] (testGenesis false) [.onStateProofInner (.lit 1)]

theorem noCapacity_never_builds :
    Machine.Run (machine ℕ ℕ noCapacity) (fun _ s op => Completes noCapacity s op) builtOnce.1
        builtOnce.2 ∧
      builtOnce.2.slotInfo = some (.lit 1, .lit 1) ∧
      builtOnce.2.env.unincludedSegmentSizeAfter 0 = 0 ∧
      noCapacity.canBuildUpon builtOnce.2 0 (.lit 2) = .ok false ∧
      ¬ Promises noCapacity builtOnce.2 0 (.lit 2) := by
  have hslot : builtOnce.2.slotInfo = some (.lit 1, .lit 1) := by decide +kernel
  have hrefused : noCapacity.canBuildUpon builtOnce.2 0 (.lit 2) = .ok false := by decide +kernel
  refine ⟨Machine.run_replay _ (.start rfl) (by decide +kernel), hslot, rfl, hrefused, fun h => ?_⟩
  have htaken := h.empty rfl fun last authored hs => by
    rw [hslot, Option.some.injEq, Prod.mk.injEq] at hs
    rw [← hs.1]
    decide
  rw [hrefused] at htaken
  cases htaken

end AsyncBacking

end Moonkit
