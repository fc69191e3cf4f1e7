import Moonkit.Base.Machine
import Moonkit.BlockBuilder
import Moonkit.SlotBased
import Moonkit.SlotClaims
import Moonkit.SlotTimer

/-!
# The lookahead collator

The loop of `collators/lookahead.rs`, and `BackingGroupConnectionHelper` of `collators.rs`. It takes
one relay block after the other; on each it builds up to two blocks on the best parent, one on the
other, and submits their collations for the first core on which the parachain is scheduled.
-/

namespace Moonkit

namespace Lookahead

open BlockBuilder (ParaId CoreIndex)
open SlotBased (asU32)
open NimbusConsensus (KeystoreKeys ParaClient UnincludedSegmentApi Collator Block SlotClaim
  claimSlot buildBlockAndImport)

variable {Hash Body RelayHash RuntimeVersion InherentData Collation CodeHash : Type}

section Cores

inductive CoreState where
  | free
  | scheduled (paraId : ParaId)
  | occupied (nextUpOnAvailable : Option ParaId)

/-- The parachain that a core is for, where candidates may wait `maxCandidateDepth` deep. -/
def CoreState.paraId (maxCandidateDepth : U32) : CoreState → Option ParaId
  | .scheduled paraId => some paraId
  | .occupied nextUpOnAvailable =>
    if .lit 1 ≤ maxCandidateDepth then nextUpOnAvailable else none
  | .free => none

/-- The cores from `index` on that are for the parachain. -/
def scheduledFrom (paraId : ParaId) (maxCandidateDepth : U32) :
    ℕ → List CoreState → List CoreIndex
  | _, [] => []
  | index, core :: cores =>
    if core.paraId maxCandidateDepth = some paraId then
      asU32 index :: scheduledFrom paraId maxCandidateDepth (index + 1) cores
    else scheduledFrom paraId maxCandidateDepth (index + 1) cores

/-- `maxCandidateDepth` comes from the async backing params, if they can be read. -/
def coresScheduledForPara (paraId : ParaId) (maxCandidateDepth : Option U32)
    (cores : Except String (List CoreState)) : List CoreIndex :=
  match cores with
  | .ok cores => scheduledFrom paraId (maxCandidateDepth.getD 0) 0 cores
  | .error _ => []

end Cores

structure RelayHeader (RelayHash : Type) where
  hash : RelayHash
  number : U32
  stateRoot : H256

structure PersistedValidationData (Hash : Type) where
  parentHead : Header Hash
  relayParentNumber : U32
  relayParentStorageRoot : H256
  maxPovSize : U32

structure SubmitCollationParams (RelayHash Hash Collation CodeHash : Type) where
  relayParent : RelayHash
  collation : Collation
  parentHead : Header Hash
  validationCodeHash : CodeHash
  coreIndex : CoreIndex

inductive Message (RelayHash Hash Collation CodeHash : Type) where
  | connectToBackingGroups
  | disconnectFromBackingGroups
  | announceBlock (hash : Hash)
  | submitCollation (params : SubmitCollationParams RelayHash Hash Collation CodeHash)

structure Params where
  paraId : ParaId
  forceAuthoring : Bool
  maxPovPercentage : Option U32
  /-- If the parachain doesn't have slot and rely only on relay slots, it is `none`. -/
  slotDuration : Option SlotDuration

/-- What the parachain node answers while a relay block is handled. -/
structure Node (Hash Body RelayHash RuntimeVersion InherentData Collation CodeHash : Type) where
  keystore : KeystoreKeys
  paraClient : ParaClient Hash RuntimeVersion
  unincludedSegment : UnincludedSegmentApi Hash
  /-- The proposer gets the inherent data and the allowed size of the PoV. -/
  collator : Collator Hash Body (InherentData × U32)
  createInherentData : RelayHash → PersistedValidationData Hash → Hash → Timestamp → NimbusId →
    Except String InherentData
  codeHashAt : Hash → Option CodeHash
  provideDigests : NimbusId → Hash → List DigestItem
  /-- `build_collation` of the collator service: the collation with the blocks of its data. -/
  buildCollation : Header Hash → Hash → Block Hash Body →
    Option (Collation × List (Block Hash Body))

/-- A new relay block, with what the relay client answers about it. -/
structure Notification
    (Hash Body RelayHash RuntimeVersion InherentData Collation CodeHash : Type) where
  relayParent : RelayHeader RelayHash
  availabilityCores : Except String (List CoreState)
  maxCandidateDepth : Option U32
  /-- The maximal size of the PoV, in the persisted validation data. -/
  maxPovSize : Except String (Option U32)
  relaySlotAndTimestamp : Option (Slot × Timestamp)
  /-- The included header and the best parent header. -/
  findParentForBuilding : Except String (Option (Header Hash × Header Hash))
  node : Node Hash Body RelayHash RuntimeVersion InherentData Collation CodeHash

structure ConnectionHelper where
  lastSlot : Option Slot
  connected : Bool

/-- The connection helper, and the messages sent so far. -/
structure State (RelayHash Hash Collation CodeHash : Type) where
  connection : ConnectionHelper
  messages : List (Message RelayHash Hash Collation CodeHash)

abbrev LoopCall (RelayHash Hash Collation CodeHash α : Type) :=
  Call (State RelayHash Hash Collation CodeHash) Unit α

def sendMsg (message : Message RelayHash Hash Collation CodeHash) :
    LoopCall RelayHash Hash Collation CodeHash Unit :=
  Call.modify fun s => { s with messages := s.messages ++ [message] }

section Connection

def hasKeys : KeystoreKeys → Bool
  | .ok keys => !keys.isEmpty
  | .error _ => false

/-- `BackingGroupConnectionHelper::update` -/
def updateConnection (keystore : KeystoreKeys) (currentSlot : Slot) :
    LoopCall RelayHash Hash Collation CodeHash Unit := do
  let s ← Call.get
  if s.connection.lastSlot = some currentSlot then pure ()
  else do
    Call.modify fun s => { s with connection.lastSlot := some currentSlot }
    if hasKeys keystore && !s.connection.connected then do
      sendMsg .connectToBackingGroups
      Call.modify fun s => { s with connection.connected := true }
    else if !hasKeys keystore && s.connection.connected then do
      sendMsg .disconnectFromBackingGroups
      Call.modify fun s => { s with connection.connected := false }
    else pure ()

end Connection

section Building

variable [DecidableEq Hash] [DecidableEq RuntimeVersion] (hash : Header Hash → Hash)
  (params : Params)

/-- `can_build_upon` of this collator. -/
def canBuildUpon (node : Node Hash Body RelayHash RuntimeVersion InherentData Collation CodeHash)
    (slot : Slot) (parent : Header Hash) (relayParentNumber : U32) (includedBlock : Hash)
    (forceAuthoring : Bool) : Option NimbusId :=
  match claimSlot hash node.paraClient node.keystore parent relayParentNumber forceAuthoring with
  | .ok (some nimbusId) =>
    if hash parent ≠ includedBlock then
      match node.unincludedSegment.canBuildUpon (hash parent) includedBlock slot with
      | .ok true => some nimbusId
      | .ok false => none
      | .error _ => none
    else some nimbusId
  | .ok none => none
  | .error _ => none

/-- `max_pov_size * max_pov_percentage / 100`, by default 85 percent. -/
def allowedPovSize {ε : Type} (maxPovPercentage : Option U32) (maxPovSize : U32) :
    Outcome ε U32 := do
  let product ← Outcome.expect (maxPovSize.checkedMul (maxPovPercentage.getD (.lit 85)))
    "attempt to multiply with overflow"
  Outcome.expect (product.checkedDiv (.lit 100)) "attempt to divide by zero"

/-- `Collator::collate` -/
def collate (node : Node Hash Body RelayHash RuntimeVersion InherentData Collation CodeHash)
    (parentHeader : Header Hash) (slotClaim : SlotClaim) (additionalPreDigest : List DigestItem)
    (inputs : InherentData × U32) :
    Outcome String (Option (Collation × List (Block Hash Body))) := do
  match ← buildBlockAndImport hash node.collator parentHeader slotClaim (some additionalPreDigest)
    inputs with
  | none => pure none
  | some candidate =>
    match node.buildCollation parentHeader (hash candidate.header) candidate with
    | some (collation, blockData) => pure (some (collation, blockData))
    | none => .err "Unable to produce collation"

/-- What stays the same while blocks are built on one relay block. -/
structure Target (Hash : Type) where
  coreIndex : CoreIndex
  maxPovSize : U32
  slotNow : Slot
  timestamp : Timestamp
  includedBlock : Hash

/-- One pass of the building loop on a parent: the header of the new block, unless the loop ends
here. -/
def buildOnce
    (n : Notification Hash Body RelayHash RuntimeVersion InherentData Collation CodeHash)
    (target : Target Hash) (parentHeader : Header Hash) :
    LoopCall RelayHash Hash Collation CodeHash (Option (Header Hash)) := do
  let parentHash := hash parentHeader
  match canBuildUpon hash n.node target.slotNow parentHeader n.relayParent.number
    target.includedBlock params.forceAuthoring with
  | none => pure none
  | some authorId =>
    let validationData : PersistedValidationData Hash :=
      ⟨parentHeader, n.relayParent.number, n.relayParent.stateRoot, target.maxPovSize⟩
    match n.node.createInherentData n.relayParent.hash validationData parentHash target.timestamp
      authorId with
    | .error _ => pure none
    | .ok inherentData =>
      match n.node.codeHashAt parentHash with
      | none => pure none
      | some validationCodeHash => do
        let allowedPovSize ← Call.lift (allowedPovSize params.maxPovPercentage target.maxPovSize)
        let collated ← Call.handle (Call.lift (collate hash n.node parentHeader
          ⟨authorId, target.timestamp⟩ (n.node.provideDigests authorId parentHash)
          (inherentData, allowedPovSize))) fun _ => pure none
        match collated with
        | none => pure none
        | some (collation, blockData) =>
          match blockData.head? with
          | none => pure none
          | some newBlock => do
            sendMsg (.announceBlock (hash newBlock.header))
            sendMsg (.submitCollation
              ⟨n.relayParent.hash, collation, parentHeader, validationCodeHash, target.coreIndex⟩)
            pure (some newBlock.header)

/-- The building loop with `passes` to go. -/
def buildLoop
    (n : Notification Hash Body RelayHash RuntimeVersion InherentData Collation CodeHash)
    (target : Target Hash) : ℕ → Header Hash → LoopCall RelayHash Hash Collation CodeHash Unit
  | 0, _ => pure ()
  | passes + 1, parentHeader => do
    match ← buildOnce hash params n target parentHeader with
    | none => pure ()
    | some newHeader => buildLoop n target passes newHeader

/-- The current slot: the parachain slot of the relay timestamp, or the relay slot. -/
def slotNow (relaySlot : Slot) (relayTimestamp : Timestamp) : Outcome Unit Slot :=
  match params.slotDuration with
  | some slotDuration =>
    Outcome.expect (Slot.fromTimestamp relayTimestamp slotDuration) "attempt to divide by zero"
  | none => pure relaySlot

/-- The loop's body for a new relay block. -/
def handle (n : Notification Hash Body RelayHash RuntimeVersion InherentData Collation CodeHash) :
    LoopCall RelayHash Hash Collation CodeHash Unit :=
  match (coresScheduledForPara params.paraId n.maxCandidateDepth n.availabilityCores).head?,
    n.maxPovSize, n.relaySlotAndTimestamp with
  | some coreIndex, .ok (some maxPovSize), some (relaySlot, timestamp) => do
    let slotNow ← Call.lift (slotNow params relaySlot timestamp)
    match n.findParentForBuilding with
    | .ok (some (includedHeader, initialParentHeader)) => do
      updateConnection n.node.keystore slotNow
      buildLoop hash params n ⟨coreIndex, maxPovSize, slotNow, timestamp, hash includedHeader⟩ 2
        initialParentHeader
    | _ => pure ()
  | _, _, _ => pure ()

/-- The collator as a machine. -/
def machine (Body RelayHash RuntimeVersion InherentData Collation CodeHash : Type)
    [DecidableEq RuntimeVersion] :
    Machine (State RelayHash Hash Collation CodeHash)
      (Notification Hash Body RelayHash RuntimeVersion InherentData Collation CodeHash)
      (Outcome Unit Unit) where
  genesis s := s = ⟨⟨none, false⟩, []⟩
  exec s n := handle hash params n s

end Building

end Lookahead

end Moonkit
