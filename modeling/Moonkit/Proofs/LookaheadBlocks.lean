import Moonkit.Proofs.ClaimedBlocks
import Moonkit.Proofs.LookaheadSubmissions
import Moonkit.Proofs.Velocity

/-!
# Blocks of the lookahead collator

The lookahead collator asks the runtime of each parent twice: whether one of its keys may author,
and whether the unincluded segment has room. Where both answers come from the runtime that will
execute the block, every collation that is submitted along a run is of a block that gets past the
author check, and past the slot and velocity checks where the room was asked for.
-/

namespace Moonkit

namespace Lookahead

open NimbusConsensus
open AsyncBacking (Hook Hook.Takes canBuildUpon_same canBuildUpon_other canBuildUpon_overflow)
open Template

variable {Hash Body RelayHash RuntimeVersion InherentData Collation CodeHash AccountId Material :
  Type} {hash : Header Hash → Hash} {verify : NimbusId → Hash → NimbusSignature → Bool}
  {source : RandomnessSource Hash Material} {hook : Hook}
  {stateAt : Hash → Runtime Hash AccountId Material} {segmentAt : Hash → AsyncBacking.State Hash}

/-- If there is room on a state, and several blocks may have a slot, the hook takes the block. -/
theorem takes_of_canBuildUpon {s : AsyncBacking.State Hash} {included : Hash} {slot : Slot}
    (hcan : hook.canBuildUpon s included slot = .ok true)
    (hallow : s.env.allowMultipleBlocksPerSlot = true) : hook.Takes s slot := by
  intro last authored hs
  by_cases hsame : last = slot
  · subst hsame
    by_cases hV : hook.velocity.val < 2 ^ 32 - 1
    · exact .inr ⟨rfl, hallow, ((canBuildUpon_same hV hs).1 hcan).2⟩
    · exact absurd hcan (canBuildUpon_overflow hV hs)
  · exact .inl ((canBuildUpon_other hs hsame).1 hcan).2

theorem runtimeApi_eq_true {parentHash included : Hash} {slot : Slot}
    (h : (runtimeApi hook segmentAt).canBuildUpon parentHash included slot = .ok true) :
    hook.canBuildUpon (segmentAt parentHash) included slot = .ok true := by
  simp only [runtimeApi] at h
  rcases hcan : hook.canBuildUpon (segmentAt parentHash) included slot with verdict | e | m <;>
    rw [hcan] at h <;> cases h
  rfl

variable [DecidableEq AccountId]

/-- The node is honest and asks the hook about the unincluded segment. -/
structure Faithful (source : RandomnessSource Hash Material) (hash : Header Hash → Hash)
    (verify : NimbusId → Hash → NimbusSignature → Bool) (hook : Hook)
    (stateAt : Hash → Runtime Hash AccountId Material)
    (segmentAt : Hash → AsyncBacking.State Hash)
    (node : Node Hash Body RelayHash RuntimeVersion InherentData Collation CodeHash) : Prop where
  honest : Honest source hash verify stateAt node.collator node.paraClient
  asksHook : node.unincludedSegment = runtimeApi hook segmentAt

variable [DecidableEq Hash] [DecidableEq RuntimeVersion] {params : Params}
  {n : Notification Hash Body RelayHash RuntimeVersion InherentData Collation CodeHash}
  {target : Target Hash} {best : Header Hash} {b : Built Hash Collation CodeHash}

/-- The collation is of a block that the runtime of its parent takes past its inherents, if that
block did not change the runtime. And it takes it past the slot and velocity checks, if the parent
is not yet included, several blocks may have a slot and the parachain has no slots of its own. -/
def Taken (source : RandomnessSource Hash Material) (hash : Header Hash → Hash)
    (verify : NimbusId → Hash → NimbusSignature → Bool) (hook : Hook) (params : Params)
    (stateAt : Hash → Runtime Hash AccountId Material)
    (segmentAt : Hash → AsyncBacking.State Hash)
    (n : Notification Hash Body RelayHash RuntimeVersion InherentData Collation CodeHash)
    (p : SubmitCollationParams RelayHash Hash Collation CodeHash) : Prop :=
  p.relayParent = n.relayParent.hash ∧ ∃ block blockData,
    n.node.buildCollation p.parentHead (hash block.header) block = some (p.collation, blockData) ∧
    (runtimeUpgraded hash n.node.paraClient p.parentHead = .ok false →
      ∃ r', executeInherents source hash verify block.header n.relayParent.number
        (stateAt (hash p.parentHead)) = (.ok (), r')) ∧
    (params.slotDuration = none → (segmentAt (hash p.parentHead)).env.allowMultipleBlocksPerSlot →
      ∀ included best, n.findParentForBuilding = .ok (some (included, best)) →
        hash p.parentHead ≠ hash included → ∀ relaySlot timestamp,
          n.relaySlotAndTimestamp = some (relaySlot, timestamp) →
            hook.Takes (segmentAt (hash p.parentHead)) relaySlot)

omit [DecidableEq Hash] in
theorem Built.Allowed.taken (hforce : params.forceAuthoring = false)
    (hnode : Faithful source hash verify hook stateAt segmentAt n.node)
    (htarget : Targets hash params n target best) (hb : b.Allowed hash params n target) :
    Taken source hash verify hook params stateAt segmentAt n
      ⟨n.relayParent.hash, b.collation, b.parent, b.validationCodeHash, target.coreIndex⟩ := by
  obtain ⟨inputs, block, blockData, hbuild, hpack, -⟩ := hb.collated
  have hclaim := hb.claimed
  rw [hforce] at hclaim
  refine ⟨rfl, block, blockData, hpack, fun hsame => ?_, ?_⟩
  · exact built_block_accepted hnode.honest.keepsDigest hnode.honest.signsValid
      hnode.honest.proposesNext (hnode.honest.asksRuntime _) hsame hclaim hbuild
  · intro hnoslot hallow included best' hfound hne relaySlot timestamp hslot
    obtain ⟨included', hfound', hincluded⟩ := htarget.parent
    rw [hfound, Except.ok.injEq, Option.some.injEq, Prod.mk.injEq] at hfound'
    rw [← hfound'.1] at hincluded
    obtain ⟨relaySlot', hslot', hnow⟩ := htarget.slot
    rw [hslot, Option.some.injEq, Prod.mk.injEq] at hslot'
    have hnow' : relaySlot' = target.slotNow := by
      unfold slotNow at hnow
      rw [hnoslot] at hnow
      exact Outcome.ok_unique rfl hnow
    rw [hslot'.1, hnow']
    rcases hb.fits with hincl | hcan
    · exact absurd (hincl.trans hincluded) hne
    · rw [hnode.asksHook] at hcan
      exact takes_of_canBuildUpon (runtimeApi_eq_true hcan) hallow

omit [DecidableEq Hash] in
theorem BuiltOn.taken (hforce : params.forceAuthoring = false)
    (hnode : Faithful source hash verify hook stateAt segmentAt n.node)
    (htarget : Targets hash params n target best) {passes : ℕ} {parent : Header Hash}
    {bs : List (Built Hash Collation CodeHash)}
    (hbs : BuiltOn hash params n target passes parent bs)
    {p : SubmitCollationParams RelayHash Hash Collation CodeHash}
    (hp : .submitCollation p ∈ bs.flatMap (Built.messages hash n target)) :
    Taken source hash verify hook params stateAt segmentAt n p := by
  induction hbs with
  | done => simp at hp
  | more hb hrest ih =>
    rw [List.flatMap_cons, List.mem_append] at hp
    rcases hp with hp | hp
    · simp only [Built.messages, List.mem_cons, reduceCtorEq, Message.submitCollation.injEq,
        List.not_mem_nil, or_false, false_or] at hp
      rw [hp]
      exact hb.taken hforce hnode htarget
    · exact ih hp

variable {allow : List (RunEvent Hash Body RelayHash RuntimeVersion InherentData Collation CodeHash)
    → State RelayHash Hash Collation CodeHash →
      Notification Hash Body RelayHash RuntimeVersion InherentData Collation CodeHash → Prop}
  {h : List (RunEvent Hash Body RelayHash RuntimeVersion InherentData Collation CodeHash)}
  {s : State RelayHash Hash Collation CodeHash}

/-- **Submitted blocks.** In every run of a collator that does not force authoring, every collation
submitted is of a block that the runtime of its parent takes. -/
theorem submitted_blocks_taken (hforce : params.forceAuthoring = false)
    (hr : (machine hash params Body RelayHash RuntimeVersion InherentData Collation CodeHash).Run
      allow h s)
    (hnode : ∀ e ∈ h, Faithful source hash verify hook stateAt segmentAt e.op.node) :
    ∀ p, .submitCollation p ∈ s.messages → ∃ e ∈ h,
      Taken source hash verify hook params stateAt segmentAt e.op p := by
  intro p hp
  obtain ⟨hmessages, hsends⟩ := messages_of_run hr
  rw [hmessages, List.mem_flatMap] at hp
  obtain ⟨e, he, hp⟩ := hp
  rw [List.mem_reverse] at he
  refine ⟨e, he, ?_⟩
  rcases hsends e he with hnone | ⟨target, best, before, after, bs, htarget, hbuilt, hsent⟩
  · rw [hnone] at hp
    cases hp
  · rw [hsent, List.mem_append] at hp
    rcases hp with hp | hp
    · unfold connectionChange at hp
      split_ifs at hp <;> simp at hp
    · exact hbuilt.taken hforce (hnode e he) htarget hp

/-- The sample node with two keys in its keystore, whose client asks the genesis of two
accounts. -/
def sampleTwoKeys : Node ℕ Unit ℕ ℕ Unit ℕ ℕ :=
  { sampleNode (.ok sampleKeys) with
    paraClient := sampleClient
    unincludedSegment := runtimeApi AsyncBacking.testHook
      fun _ => AsyncBacking.testGenesis true }

theorem sampleTwoKeys_faithful : Faithful sampleSource (fun _ => 0)
    (fun _ _ signature => signature = Vector.replicate 64 0) AsyncBacking.testHook
    (fun _ => sampleRuntime) (fun _ => AsyncBacking.testGenesis true) sampleTwoKeys where
  honest := sampleClient_honest (fun _ _ _ => rfl) fun _ _ => rfl
  asksHook := rfl

theorem sampleTwoKeys_run : sampleMachine.Run (fun _ _ _ => True)
    (sampleMachine.replay [] ⟨⟨none, false⟩, []⟩ [sampleNotification (.lit 7) sampleTwoKeys]).1
    (sampleMachine.replay [] ⟨⟨none, false⟩, []⟩ [sampleNotification (.lit 7) sampleTwoKeys]).2 :=
  Machine.run_replay_all _ (.start rfl)

theorem submitted_blocks_taken_sampled :
    ∃ p, .submitCollation p ∈ (sampleMachine.replay [] ⟨⟨none, false⟩, []⟩
        [sampleNotification (.lit 7) sampleTwoKeys]).2.messages ∧
      ∃ e ∈ (sampleMachine.replay [] ⟨⟨none, false⟩, []⟩
          [sampleNotification (.lit 7) sampleTwoKeys]).1,
        Taken sampleSource (fun _ => 0) (fun _ _ signature => signature = Vector.replicate 64 0)
          AsyncBacking.testHook sampleParams (fun _ => sampleRuntime)
          (fun _ => AsyncBacking.testGenesis true) e.op p := by
  have hsubmits : (((sampleMachine.replay [] ⟨⟨none, false⟩, []⟩ [sampleNotification (.lit 7)
    sampleTwoKeys]).2.messages.filterMap Message.submission).isEmpty) = false := by decide +kernel
  obtain ⟨p, hp⟩ := List.exists_mem_of_ne_nil _ (List.isEmpty_eq_false_iff.1 hsubmits)
  have hmem := mem_submissions.1 hp
  exact ⟨p, hmem, submitted_blocks_taken rfl sampleTwoKeys_run
    (List.forall_mem_singleton.2 sampleTwoKeys_faithful) p hmem⟩

end Lookahead

end Moonkit
