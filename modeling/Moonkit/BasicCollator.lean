import Moonkit.SlotBased

/-!
# The basic collator

The loop of `collators/basic.rs`. It takes one collation request after the other, and builds on the
relay parent of the request unless that gives it no newer slot than it processed last. To tell this
it keeps the slot and the relay block number of the last request that it processed to the end.
-/

namespace Moonkit

namespace BasicCollator

open NimbusConsensus (Duration)

variable {RelayHash Hash : Type}

structure RelayHeader where
  number : U32
  digest : List DigestItem
deriving DecidableEq

structure Params where
  /-- The length of slots in the relay chain. -/
  relayChainSlotDuration : Duration
  /-- The length of slots in this parachain. If the parachain doesn't have slot and rely only on
  relay slots, set it to None. -/
  slotDuration : Option SlotDuration
  /-- `consensus_common::relay_slot_and_timestamp` -/
  relaySlotAndTimestamp : RelayHeader → Duration → Option (Slot × Timestamp)

/-- A collation request, with what the rest of the node answers while it is handled. -/
structure Request (RelayHash Hash : Type) where
  relayParent : RelayHash
  /-- The header that the parent head decodes to. -/
  parentHeader : Except String (Header Hash)
  checkBlockStatus : Bool
  /-- The code in the state of the parent, if it can be read. -/
  code : Option (List UInt8)
  relayParentHeader : Except String (Option RelayHeader)
  claimSlot : Except String (Option NimbusId)
  /-- Whether the inherent data can be created. -/
  createInherentData : Except String Unit
  /-- The hashes of the blocks of the collation, if there is a proposal. -/
  collate : Except String (Option (List Hash))

/-- How a request ends that is not processed to the end. -/
inductive Rejection where
  /-- The requester gets `None`. -/
  | rejected (err : String)
  /-- The requester gets nothing. -/
  | dropped
deriving DecidableEq

/-- What the loop keeps from one request to the next. -/
structure State where
  lastProcessedSlot : Slot
  lastRelayChainBlock : U32
deriving DecidableEq

abbrev LoopCall (α : Type) := Call State Rejection α

/-- `try_request!` -/
def tryRequest {α : Type} : Except String α → LoopCall α
  | .ok x => pure x
  | .error err => Call.err (.rejected err)

variable (P : Params)

/-- The current slot, with its timestamp. -/
def slotNow (relayParentHeader : RelayHeader) : Outcome Rejection (Slot × Timestamp) := do
  let (relaySlot, relayTimestamp) ← Outcome.okOr
    (P.relaySlotAndTimestamp relayParentHeader P.relayChainSlotDuration) .dropped
  let ourSlot ← match P.slotDuration with
    | some slotDuration =>
      Outcome.expect (Slot.fromTimestamp relayTimestamp slotDuration) "attempt to divide by zero"
    -- the parachain uses the relay slot directly
    | none => pure relaySlot
  pure (ourSlot, relayTimestamp)

/-- The request would be a second block of its slot. -/
def Skips (s : State) (slotNow : Slot) (relayParentHeader : RelayHeader) : Prop :=
  slotNow ≤ s.lastProcessedSlot ∧ s.lastRelayChainBlock < relayParentHeader.number

instance (s : State) (slotNow : Slot) (relayParentHeader : RelayHeader) :
    Decidable (Skips s slotNow relayParentHeader) :=
  inferInstanceAs (Decidable (_ ∧ _))

/-- The loop's body. It answers with the hash of the block that the collation is for, if the
requester gets one. -/
def handle (request : Request RelayHash Hash) : LoopCall (Option Hash) := do
  let _parentHeader ← tryRequest request.parentHeader
  Call.ensure request.checkBlockStatus .dropped
  let _code ← Call.okOr request.code .dropped
  let relayParentHeader ← tryRequest request.relayParentHeader
  let relayParentHeader ← Call.okOr relayParentHeader .dropped
  let nimbusId ← tryRequest request.claimSlot
  let _nimbusId ← Call.okOr nimbusId .dropped
  let (slotNow, _timestamp) ← Call.lift (slotNow P relayParentHeader)
  let s ← Call.get
  Call.ensure (¬ Skips s slotNow relayParentHeader) .dropped
  tryRequest request.createInherentData
  let maybeCollation ← tryRequest request.collate
  let blockHash ← match maybeCollation with
    | some blocks => do
      let blockHash ← Call.okOr blocks.head? .dropped
      pure (some blockHash)
    | none => pure none
  Call.modify fun _ => ⟨slotNow, relayParentHeader.number⟩
  pure blockHash

/-- The loop as a machine. -/
def machine (RelayHash Hash : Type) (P : Params) :
    Machine State (Request RelayHash Hash) (Outcome Rejection (Option Hash)) where
  genesis s := s = ⟨0, 0⟩
  exec s request := handle P request s

abbrev RunEvent (RelayHash Hash : Type) :=
  Machine.Event State (Request RelayHash Hash) (Outcome Rejection (Option Hash))

end BasicCollator

end Moonkit
