import Moonkit.Proofs.CollationDelivery
import Moonkit.Proofs.LookaheadBlocks

/-!
# Blocks of the slot-based collator

Every collation that the slot-based collator submits is of a block that a pass built where it chose
to. The runtime of the parent takes that block past its inherents, and the slot and velocity checks
let it in at the slot that the builder asked about.
-/

namespace Moonkit

namespace SlotBasedCollator

open BlockBuilder (CumulusDigest)
open NimbusConsensus
open AsyncBacking (Hook Hook.Takes)
open Lookahead (Message SubmitCollationParams mem_submissions runtimeApi_eq_true
  takes_of_canBuildUpon)
open Template

variable {Hash Body RelayHash RuntimeVersion InherentData Collation CodeHash AccountId Material :
  Type} [DecidableEq Hash] [DecidableEq RelayHash] [DecidableEq RuntimeVersion]
  [DecidableEq AccountId] {hash : Header Hash → Hash} {D : CumulusDigest RelayHash}
  {V : RelayHeaderFields RelayHash} {P : Params} {overflowChecks : Bool}
  {verify : NimbusId → Hash → NimbusSignature → Bool} {source : RandomnessSource Hash Material}
  {hook : Hook} {stateAt : Hash → Runtime Hash AccountId Material}
  {segmentAt : Hash → AsyncBacking.State Hash}

omit [DecidableEq RelayHash] [DecidableEq RuntimeVersion] in
theorem canBuildUpon_eq_some {api : UnincludedSegmentApi Hash}
    {claim : Except String (Option NimbusId)} {paraSlot relaySlot : Slot} {timestamp : Timestamp}
    {parentHash includedBlock : Hash} {slotClaim : SlotClaim}
    (h : canBuildUpon api claim paraSlot relaySlot timestamp parentHash includedBlock
      = some slotClaim) : claim = .ok (some slotClaim.authorId) ∧
      (parentHash = includedBlock ∨ ∃ version, api.apiVersion parentHash = .ok (some version) ∧
        api.canBuildUpon parentHash includedBlock
          (if .lit 1 < version then relaySlot else paraSlot) = .ok true) := by
  unfold canBuildUpon at h
  rcases claim with e | _ | authorPub
  · cases h
  · cases h
  by_cases hincluded : parentHash = includedBlock
  · simp only [Except.toOption, Option.join_some, Option.bind_eq_bind, Option.bind_some,
      if_pos hincluded, Option.some.injEq] at h
    exact ⟨by rw [← h], .inl hincluded⟩
  · simp only [Except.toOption, Option.join_some, Option.bind_eq_bind, Option.bind_some,
      if_neg hincluded, Option.bind_eq_some_iff] at h
    obtain ⟨version, hversion, verdict, hverdict, hclaim⟩ := h
    rcases hapi : api.apiVersion parentHash with e | _ | version' <;> rw [hapi] at hversion <;>
      cases hversion
    rcases hcan : api.canBuildUpon parentHash includedBlock
      (if .lit 1 < version then relaySlot else paraSlot) with e | verdict' <;>
      rw [hcan] at hverdict <;> cases hverdict
    rcases verdict with _ | _ <;> cases hclaim
    exact ⟨rfl, .inr ⟨version, rfl, hcan⟩⟩

omit [DecidableEq RelayHash] in
/-- What is known of a block that a pass built at a spot. -/
theorem produce_eq_ok {p : Pass Hash Body RelayHash RuntimeVersion InherentData CodeHash}
    {timer : SlotBased.SlotTimer} {spot : Spot Hash RelayHash} {built : Block Hash Body × CodeHash}
    (h : produce hash V P overflowChecks p timer spot = .ok built) :
    ∃ slotClaim inputs, canBuildUpon p.unincludedSegment
        (claimSlot hash p.paraClient p.keystore spot.parentHeader
          (V.number spot.rpData.relayParent) P.forceAuthoring)
        spot.paraSlot.slot spot.relaySlot spot.paraSlot.timestamp (hash spot.parentHeader)
        (hash spot.includedHeader) = some slotClaim ∧
      buildBlockAndImport hash p.collator spot.parentHeader slotClaim
        (some (p.provideDigests slotClaim.authorId (hash spot.parentHeader))) inputs
          = .ok (some built.1) := by
  unfold produce at h
  simp only [Outcome.bind_eq_ok, Outcome.okOr_eq_ok, Outcome.mapErr_eq_ok] at h
  obtain ⟨slotClaim, hclaim, inherentData, -, codeHash, -, size, -, duration, -, time, -, block,
    hblock, candidate, hcandidate, hbuilt⟩ := h
  cases hbuilt
  subst hcandidate
  exact ⟨slotClaim, _, hclaim, hblock⟩

/-- The runtime of the parent takes the block past its inherents, if the parent did not change the
runtime; and its slot and velocity checks let the block in at the parachain slot, if the parent is
not yet included and several blocks may have a slot. -/
structure Taken (source : RandomnessSource Hash Material) (hash : Header Hash → Hash)
    (verify : NimbusId → Hash → NimbusSignature → Bool) (hook : Hook)
    (stateAt : Hash → Runtime Hash AccountId Material)
    (segmentAt : Hash → AsyncBacking.State Hash) (V : RelayHeaderFields RelayHash)
    (p : Pass Hash Body RelayHash RuntimeVersion InherentData CodeHash) (spot : Spot Hash RelayHash)
    (block : Block Hash Body) : Prop where
  inherents : runtimeUpgraded hash p.paraClient spot.parentHeader = .ok false →
    ∃ r', executeInherents source hash verify block.header (V.number spot.rpData.relayParent)
      (stateAt (hash spot.parentHeader)) = (.ok (), r')
  velocity : hash spot.parentHeader ≠ hash spot.includedHeader →
    (segmentAt (hash spot.parentHeader)).env.allowMultipleBlocksPerSlot = true →
      hook.Takes (segmentAt (hash spot.parentHeader)) spot.paraSlot.slot

omit [DecidableEq RelayHash] in
theorem taken_of_produce {p : Pass Hash Body RelayHash RuntimeVersion InherentData CodeHash}
    {timer : SlotBased.SlotTimer} {spot : Spot Hash RelayHash} {built : Block Hash Body × CodeHash}
    (hforce : P.forceAuthoring = false)
    (hnode : Honest source hash verify stateAt p.collator p.paraClient)
    (hasks : p.unincludedSegment = runtimeApi hook segmentAt)
    (h : produce hash V P overflowChecks p timer spot = .ok built) :
    Taken source hash verify hook stateAt segmentAt V p spot built.1 := by
  obtain ⟨slotClaim, inputs, hcan, hbuild⟩ := produce_eq_ok h
  obtain ⟨hclaim, hroom⟩ := canBuildUpon_eq_some hcan
  rw [hforce] at hclaim
  constructor
  · intro hsame
    exact built_block_accepted hnode.keepsDigest hnode.signsValid hnode.proposesNext
      (hnode.asksRuntime _) hsame hclaim hbuild
  · intro hne hallow
    obtain ⟨version, hversion, hverdict⟩ := hroom.resolve_left hne
    rw [hasks] at hversion hverdict
    cases hversion
    exact takes_of_canBuildUpon (runtimeApi_eq_true hverdict) hallow

variable {allow : List (RunEvent Hash Body RelayHash RuntimeVersion InherentData Collation CodeHash)
    → State Hash Body RelayHash Collation CodeHash →
      Op Hash Body RelayHash RuntimeVersion InherentData Collation CodeHash → Prop}
  {h : List (RunEvent Hash Body RelayHash RuntimeVersion InherentData Collation CodeHash)}
  {s : State Hash Body RelayHash Collation CodeHash}

/-- **Collated blocks.** In every run of a collator that does not force authoring, every collation
submitted is what the collation task packed for a block that a pass built at the spot it chose, and
the runtime of the parent takes that block. -/
theorem collated_blocks_taken (hr : (machine hash D V P overflowChecks Body RuntimeVersion
    InherentData Collation CodeHash).Run allow h s) (hforce : P.forceAuthoring = false)
    (hnode : ∀ e ∈ h, ∀ p, e.op = .pass p →
      Honest source hash verify stateAt p.collator p.paraClient ∧
        p.unincludedSegment = runtimeApi hook segmentAt) :
    ∀ params, .submitCollation params ∈ s.messages → ∃ e ∈ h, ∃ p spot b₁ block,
      e.op = .pass p ∧ chooseSpot D V P overflowChecks p e.before.builder = (.ok spot, b₁) ∧
      produce hash V P overflowChecks p b₁.timer spot = .ok (block, params.validationCodeHash) ∧
      params.relayParent = spot.rpData.relayParent.hash ∧ params.parentHead = spot.parentHeader ∧
      params.coreIndex = spot.core.coreIndex ∧
      (∃ e' ∈ h, ∃ build blockData, e'.op = .receive build ∧
        build spot.parentHeader (hash block.header) block = some (params.collation, blockData)) ∧
      Taken source hash verify hook stateAt segmentAt V p spot block := by
  intro params hparams
  rw [← mem_submissions, submitted_of_run hr, List.mem_flatMap] at hparams
  obtain ⟨e', he', hparams⟩ := hparams
  rcases hop' : e'.op with p | build | block <;> rw [hop'] at hparams
  · cases hparams
  · obtain ⟨m, hm, hsubmission⟩ := List.mem_filterMap.1 hparams
    have hsent : m ∈ h.reverse.flatMap sent := by
      rw [messages_fifo hr]
      exact List.mem_append_left _ (List.mem_flatMap.2 ⟨e', he', hm⟩)
    obtain ⟨e, he, hm'⟩ := List.mem_flatMap.1 hsent
    rw [List.mem_reverse] at he he'
    rcases sent_of_run hr e he with hnone | ⟨p, m', hop, hone, hproduced⟩
    · rw [hnone] at hm'
      cases hm'
    · rw [hone, List.mem_singleton] at hm'
      obtain ⟨spot, built, b₁, hspot, hbuilt, rfl⟩ := hproduced
      subst hm'
      obtain ⟨⟨collation, blockData⟩, hbuild, rfl⟩ := Option.map_eq_some_iff.1 hsubmission
      exact ⟨e, he, p, spot, b₁, built.1, hop, hspot, hbuilt, rfl, rfl, rfl,
        ⟨e', he', build, blockData, hop', hbuild⟩,
        taken_of_produce hforce (hnode e he p hop).1 (hnode e he p hop).2 hbuilt⟩
  · cases hparams

/-- A pass of a node with two keys whose client asks the genesis of two accounts, and the receipt of
its block. -/
def sampleCollation : List (Op ℕ Unit ℕ ℕ Unit ℕ ℕ) :=
  [.pass { samplePass sampleKeys sampleClient (some 5) with
      unincludedSegment := runtimeApi AsyncBacking.testHook
        fun _ => AsyncBacking.testGenesis true },
    .receive fun _ _ block => some (block.header.number, [block])]

theorem sampleCollation_run : sampleMachine.Run (fun _ _ _ => True)
    (sampleMachine.replay [] (.initial SlotBasedCollator.sampleParams true true)
      sampleCollation).1
    (sampleMachine.replay [] (.initial SlotBasedCollator.sampleParams true true)
      sampleCollation).2 :=
  Machine.run_replay_all sampleCollation (.start ⟨true, true, rfl⟩)

theorem sampleCollation_honest : ∀ e ∈ (sampleMachine.replay []
    (.initial SlotBasedCollator.sampleParams true true) sampleCollation).1, ∀ p, e.op = .pass p →
      Honest sampleSource (fun _ => 0)
        (fun _ _ signature => signature = Vector.replicate 64 0) (fun _ => sampleRuntime) p.collator
        p.paraClient ∧
      p.unincludedSegment = runtimeApi AsyncBacking.testHook
        fun _ => AsyncBacking.testGenesis true := by
  intro e he p hop
  simp only [sampleCollation, Machine.replay, List.mem_cons, List.not_mem_nil, or_false] at he
  rcases he with rfl | rfl
  · cases hop
  · cases hop
    exact ⟨sampleClient_honest (fun _ _ _ => rfl) fun _ _ => rfl, rfl⟩

theorem collated_blocks_taken_sampled :
    ∃ params, .submitCollation params ∈ (sampleMachine.replay []
        (.initial SlotBasedCollator.sampleParams true true) sampleCollation).2.messages ∧
      ∃ e ∈ (sampleMachine.replay [] (.initial SlotBasedCollator.sampleParams true true)
          sampleCollation).1, ∃ p spot b₁ block, e.op = .pass p ∧
        chooseSpot ⟨fun _ => none, fun _ => none, fun _ => none⟩ sampleFields
          SlotBasedCollator.sampleParams false p e.before.builder = (.ok spot, b₁) ∧
        produce (fun _ => 0) sampleFields SlotBasedCollator.sampleParams false p b₁.timer spot
          = .ok (block, params.validationCodeHash) ∧
        params.relayParent = spot.rpData.relayParent.hash ∧ params.parentHead = spot.parentHeader ∧
        params.coreIndex = spot.core.coreIndex ∧
        (∃ e' ∈ (sampleMachine.replay [] (.initial SlotBasedCollator.sampleParams true true)
            sampleCollation).1, ∃ build blockData, e'.op = .receive build ∧
          build spot.parentHeader 0 block = some (params.collation, blockData)) ∧
        Taken sampleSource (fun _ => 0) (fun _ _ signature => signature = Vector.replicate 64 0)
          AsyncBacking.testHook (fun _ => sampleRuntime) (fun _ => AsyncBacking.testGenesis true)
          sampleFields p spot block := by
  have hsubmits : (((sampleMachine.replay [] (.initial SlotBasedCollator.sampleParams true true)
    sampleCollation).2.messages.filterMap Message.submission).isEmpty) = false := by decide +kernel
  obtain ⟨params, hparams⟩ := List.exists_mem_of_ne_nil _ (List.isEmpty_eq_false_iff.1 hsubmits)
  have hmem := mem_submissions.1 hparams
  exact ⟨params, hmem, collated_blocks_taken sampleCollation_run rfl sampleCollation_honest params
    hmem⟩

end SlotBasedCollator

end Moonkit
