import Moonkit.Lookahead
import Moonkit.RelayParentSearch

/-!
# The two tasks of the slot-based collator

`collators/slot_based/{mod,block_builder_task,collation_task}.rs`. The block builder makes one pass
after the other: it waits for the next slot, chooses a relay parent, a parent and a core, builds a
block and sends it to the collation task, which packs the block and submits the collation. Each
task runs at its own pace; the channel between them is unbounded.
-/

namespace Moonkit

namespace SlotBasedCollator

open BlockBuilder (ParaId CoreIndex Core RelayHeader RelayHeaderReader RelayParentData RelayClient
  RelayChainData RelayChainDataCache CumulusDigest CacheCall determineCore getMutRelayChainData
  offsetRelayParentFindDescendants touch)
open SlotBased (Duration SlotTimer asU32)
open NimbusConsensus (KeystoreKeys ParaClient UnincludedSegmentApi Collator Block SlotInfo claimSlot
  canBuildUpon adjustParaToRelayParentSlot buildBlockAndImport)
open Lookahead (PersistedValidationData ConnectionHelper Message updateConnection allowedPovSize)

variable {Hash Body RelayHash RuntimeVersion InherentData Collation CodeHash : Type}

section Data

/-- What the builder reads of a relay header besides its hash and its state root. -/
structure RelayHeaderFields (RelayHash : Type) extends RelayHeaderReader RelayHash where
  number : RelayHeader RelayHash → U32
  babeSlot : RelayHeader RelayHash → Option Slot

structure Params where
  paraId : ParaId
  /-- The amount of time to spend authoring each block. -/
  authoringDuration : Duration
  relayChainSlotDuration : Duration
  paraSlotDuration : Option Duration
  slotOffset : Duration
  maxPovPercentage : Option U32
  forceAuthoring : Bool

/-- Message to be sent from the block builder to the collation task. -/
structure CollatorMessage (Hash Body RelayHash CodeHash : Type) where
  relayParent : RelayHash
  parentHeader : Header Hash
  parachainCandidate : Block Hash Body
  validationCodeHash : CodeHash
  coreIndex : CoreIndex
  maxPovSize : U32

/-- What the node and the relay chain answer while the builder makes a pass. -/
structure Pass (Hash Body RelayHash RuntimeVersion InherentData CodeHash : Type) where
  /-- The clock when the wait begins. -/
  timeNow : Duration
  /-- The clock when the authoring duration is adjusted, which reads it twice. -/
  timeAuthoring : Duration × Duration
  bestBlockHash : Option RelayHash
  /-- What the runtime of the best block answers. -/
  relayParentOffset : Option U32
  relayClient : RelayClient RelayHash
  /-- The included header and the best parent header. -/
  findParentForBuilding : RelayHash → Except String (Option (Header Hash × Header Hash))
  keystore : KeystoreKeys
  paraClient : ParaClient Hash RuntimeVersion
  unincludedSegment : UnincludedSegmentApi Hash
  /-- The proposer gets the inherent data, the time to propose in and the allowed PoV size. -/
  collator : Collator Hash Body (InherentData × Duration × U32)
  createInherentData : RelayHash → PersistedValidationData Hash → Hash → Timestamp →
    List (RelayHeader RelayHash) → Except String InherentData
  codeHashAt : Hash → Option CodeHash
  provideDigests : NimbusId → Hash → List DigestItem

/-- What the builder keeps from one pass to the next. -/
structure Builder (RelayHash : Type) where
  timer : SlotTimer
  cache : RelayChainDataCache RelayHash
  connection : ConnectionHelper

structure State (Hash Body RelayHash Collation CodeHash : Type) where
  builder : Builder RelayHash
  /-- Whether the builder runs. -/
  building : Bool
  /-- Whether the collation task runs. -/
  collating : Bool
  /-- The messages in the channel, the next one first. -/
  queue : List (CollatorMessage Hash Body RelayHash CodeHash)
  /-- What was announced and sent to the overseer so far. -/
  messages : List (Message RelayHash Hash Collation CodeHash)

/-- How a pass ends that sends no block. -/
inductive Exit where
  /-- The loop goes on. -/
  | skip
  /-- The builder ends. -/
  | ends
deriving DecidableEq

abbrev TaskCall (Hash Body RelayHash Collation CodeHash α : Type) :=
  Call (State Hash Body RelayHash Collation CodeHash) Exit α

end Data

section Building

variable [DecidableEq Hash] [DecidableEq RelayHash] [DecidableEq RuntimeVersion]
  (hash : Header Hash → Hash) (D : CumulusDigest RelayHash) (V : RelayHeaderFields RelayHash)
  (P : Params) (overflowChecks : Bool)
  (p : Pass Hash Body RelayHash RuntimeVersion InherentData CodeHash)

def onTimer {α : Type} (x : Call SlotTimer Empty α) : Call (Builder RelayHash) Exit α :=
  Call.on Builder.timer (fun timer b => { b with timer := timer }) (x.handle Empty.elim)

def onCache {α : Type} (x : CacheCall RelayHash α) : Call (Builder RelayHash) Exit α :=
  Call.on Builder.cache (fun cache b => { b with cache := cache })
    (x.handle fun () => Call.err .skip)

/-- `find_parent` -/
def findParent (relayParent : RelayHash) : Option (Header Hash × Header Hash) :=
  match p.findParentForBuilding relayParent with
  | .ok result => result
  | .error _ => none

/-- `saturated_into::<u64>()` -/
def saturatedIntoU64 (n : ℕ) : U64 := ⟨min n (2 ^ 64 - 1), min_le_right _ _⟩

/-- Where a pass builds its block. -/
structure Spot (Hash RelayHash : Type) where
  rpData : RelayParentData RelayHash
  paraSlot : SlotInfo
  relaySlot : Slot
  includedHeader : Header Hash
  parentHeader : Header Hash
  core : Core
  relayChainData : RelayChainData RelayHash

/-- A pass up to the slot of the relay parent. -/
def chooseSpot : Call (Builder RelayHash) Exit (Spot Hash RelayHash) := do
  let _ ← onTimer (SlotTimer.waitUntilNextSlot overflowChecks p.timeNow)
  let relayBestHash ← Call.okOr p.bestBlockHash .skip
  let relayParentOffset := p.relayParentOffset.getD 0
  let b ← Call.get
  let found ← onCache (offsetRelayParentFindDescendants V.toRelayHeaderReader p.relayClient
    relayBestHash relayParentOffset)
  let rpData ← Call.okOr found .skip
  let relayParent := rpData.relayParent
  let adjusted ← Call.lift ((adjustParaToRelayParentSlot (V.babeSlot relayParent)
    P.relayChainSlotDuration.asMillis (saturatedIntoU64 b.timer.slotDuration.asMillis)).mapErr
      fun _ => .skip)
  let paraSlot ← Call.okOr adjusted .skip
  let parents ← Call.okOr (findParent p relayParent.hash) .skip
  let core ← onCache (determineCore D ⟨P.paraId, relayParentOffset⟩ p.relayClient relayParent
    parents.2)
  let core ← Call.okOr core .skip
  let relayChainData ← onCache (getMutRelayChainData p.relayClient relayParent.hash)
  onTimer (SlotTimer.updateScheduling (asU32 core.numberOfCores))
  let relaySlot ← Call.okOr (V.babeSlot relayParent) .skip
  pure ⟨rpData, paraSlot, relaySlot, parents.1, parents.2, core, relayChainData⟩

/-- A pass from the claim of the slot to the import of the block. -/
def produce (timer : SlotTimer) (spot : Spot Hash RelayHash) :
    Outcome Exit (Block Hash Body × CodeHash) := do
  let parentHash := hash spot.parentHeader
  let relayParent := spot.rpData.relayParent
  let slotClaim ← Outcome.okOr (canBuildUpon p.unincludedSegment
    (claimSlot hash p.paraClient p.keystore spot.parentHeader (V.number relayParent)
      P.forceAuthoring)
    spot.paraSlot.slot spot.relaySlot spot.paraSlot.timestamp parentHash
    (hash spot.includedHeader)) .skip
  let validationData : PersistedValidationData Hash := ⟨spot.parentHeader, V.number relayParent,
    relayParent.stateRoot, spot.relayChainData.maxPovSize⟩
  let inherentData ← Outcome.okOr (p.createInherentData relayParent.hash validationData parentHash
    slotClaim.timestamp spot.rpData.intoInherentDescendantList).toOption .ends
  let validationCodeHash ← Outcome.okOr (p.codeHashAt parentHash) .ends
  let allowedPovSize ← allowedPovSize P.maxPovPercentage validationData.maxPovSize
  let adjusted ← (timer.adjustAuthoringDuration overflowChecks p.timeAuthoring.1 p.timeAuthoring.2
    P.authoringDuration).mapErr Empty.elim
  let authoringDuration ← Outcome.okOr adjusted .skip
  let built ← (buildBlockAndImport hash p.collator spot.parentHeader slotClaim
    (some (p.provideDigests slotClaim.authorId parentHash))
    (inherentData, authoringDuration, allowedPovSize)).mapErr fun _ => .skip
  let candidate ← Outcome.okOr built .skip
  pure (candidate, validationCodeHash)

def sendMsg (message : Message RelayHash Hash Collation CodeHash) :
    TaskCall Hash Body RelayHash Collation CodeHash Unit :=
  Call.modify fun s => { s with messages := s.messages ++ [message] }

/-- What the connection helper sees. -/
def State.helper (s : State Hash Body RelayHash Collation CodeHash) :
    Lookahead.State RelayHash Hash Collation CodeHash :=
  ⟨s.builder.connection, s.messages⟩

def setHelper (t : Lookahead.State RelayHash Hash Collation CodeHash)
    (s : State Hash Body RelayHash Collation CodeHash) :
    State Hash Body RelayHash Collation CodeHash :=
  { s with builder := { s.builder with connection := t.connection }, messages := t.messages }

/-- The update of the connection helper. -/
def connect (keystore : KeystoreKeys) (slot : Slot) :
    TaskCall Hash Body RelayHash Collation CodeHash Unit :=
  Call.on State.helper setHelper
    ((updateConnection keystore slot).handle fun () => Call.err .skip)

/-- `unbounded_send`; it fails where nobody receives any more. -/
def unboundedSend (message : CollatorMessage Hash Body RelayHash CodeHash) :
    TaskCall Hash Body RelayHash Collation CodeHash Unit := do
  let s ← Call.get
  if s.collating then Call.modify fun s => { s with queue := s.queue ++ [message] }
  else Call.err .ends

/-- `*last_claimed_core_selector = Some(..)`, in the data that was used last. -/
def recordClaim (spot : Spot Hash RelayHash) (b : Builder RelayHash) : Builder RelayHash :=
  let data := { spot.relayChainData with lastClaimedCoreSelector := some spot.core.selector }
  { b with cache := touch spot.rpData.relayParent.hash data b.cache }

/-- A pass of the builder. -/
def pass : TaskCall Hash Body RelayHash Collation CodeHash Unit := do
  let spot ← Call.on State.builder (fun b s => { s with builder := b })
    (chooseSpot D V P overflowChecks p)
  connect p.keystore spot.paraSlot.slot
  let s ← Call.get
  let built ← Call.lift (produce hash V P overflowChecks p s.builder.timer spot)
  sendMsg (.announceBlock (hash built.1.header))
  Call.modify fun s => { s with builder := recordClaim spot s.builder }
  unboundedSend ⟨spot.rpData.relayParent.hash, spot.parentHeader, built.1, built.2,
    spot.core.coreIndex, spot.relayChainData.maxPovSize⟩

end Building

section Collating

/-- `build_collation` of the collator service. -/
abbrev BuildCollation (Hash Body Collation : Type) :=
  Header Hash → Hash → Block Hash Body → Option (Collation × List (Block Hash Body))

variable (hash : Header Hash → Hash) (buildCollation : BuildCollation Hash Body Collation)

def handleCollationMessage (message : CollatorMessage Hash Body RelayHash CodeHash) :
    TaskCall Hash Body RelayHash Collation CodeHash Unit :=
  match buildCollation message.parentHeader (hash message.parachainCandidate.header)
    message.parachainCandidate with
  | some (collation, _) =>
    sendMsg (.submitCollation ⟨message.relayParent, collation, message.parentHeader,
      message.validationCodeHash, message.coreIndex⟩)
  | none => pure ()

/-- The collation task looks for a message. There will be none when the builder has ended. -/
def receive : TaskCall Hash Body RelayHash Collation CodeHash Unit := do
  let s ← Call.get
  match s.queue with
  | message :: queue => do
    Call.modify fun s => { s with queue := queue }
    handleCollationMessage hash buildCollation message
  | [] =>
    if s.building then pure ()
    else Call.modify fun s => { s with collating := false }

end Collating

section Runs

inductive Op (Hash Body RelayHash RuntimeVersion InherentData Collation CodeHash : Type) where
  /-- The builder makes a pass. -/
  | pass (p : Pass Hash Body RelayHash RuntimeVersion InherentData CodeHash)
  /-- The collation task looks for a message of the builder. -/
  | receive (buildCollation : BuildCollation Hash Body Collation)
  /-- The collation task gets a block that was imported. -/
  | blockImport (block : Block Hash Body)

variable [DecidableEq Hash] [DecidableEq RelayHash] [DecidableEq RuntimeVersion]
  (hash : Header Hash → Hash) (D : CumulusDigest RelayHash) (V : RelayHeaderFields RelayHash)
  (P : Params) (overflowChecks : Bool)

/-- A task that has ended does nothing any more. A panic ends the builder. -/
def Op.run (s : State Hash Body RelayHash Collation CodeHash) :
    Op Hash Body RelayHash RuntimeVersion InherentData Collation CodeHash →
      Outcome Exit Unit × State Hash Body RelayHash Collation CodeHash
  | .pass p =>
    if s.building then
      match SlotBasedCollator.pass hash D V P overflowChecks p s with
      | (.ok (), s) => (.ok (), s)
      | (.err .skip, s) => (.err .skip, s)
      | (.err .ends, s) => (.err .ends, { s with building := false })
      | (.panic m, s) => (.panic m, { s with building := false })
    else (.ok (), s)
  | .receive buildCollation =>
    if s.collating then SlotBasedCollator.receive hash buildCollation s else (.ok (), s)
  | .blockImport _ => (.ok (), s)

/-- The state in which the tasks begin, `building` and `collating` where they get hold of the
overseer. -/
def State.initial (P : Params) (building collating : Bool) :
    State Hash Body RelayHash Collation CodeHash where
  builder := ⟨.newWithOffset P.slotOffset P.relayChainSlotDuration P.paraSlotDuration, [],
    ⟨none, false⟩⟩
  building := building
  collating := collating
  queue := []
  messages := []

/-- The tasks as a machine. -/
def machine (Body RuntimeVersion InherentData Collation CodeHash : Type)
    [DecidableEq RuntimeVersion] :
    Machine (State Hash Body RelayHash Collation CodeHash)
      (Op Hash Body RelayHash RuntimeVersion InherentData Collation CodeHash)
      (Outcome Exit Unit) where
  genesis s := ∃ building collating, s = .initial P building collating
  exec s op := op.run hash D V P overflowChecks s

abbrev RunEvent (Hash Body RelayHash RuntimeVersion InherentData Collation CodeHash : Type) :=
  Machine.Event (State Hash Body RelayHash Collation CodeHash)
    (Op Hash Body RelayHash RuntimeVersion InherentData Collation CodeHash) (Outcome Exit Unit)

end Runs

end SlotBasedCollator

end Moonkit
