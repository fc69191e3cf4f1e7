import Moonkit.Base.Machine
import Moonkit.Base.Weight
import Moonkit.Primitives

/-!
# The async-backing pallet

`pallets/async-backing/src/{lib,consensus_hook}.rs`. The consensus hook takes the relay slot of a
block's relay parent. It keeps the last one with the number of blocks that were built in it, refuses
a slot that goes back and too many blocks in one slot, and checks the parachain slot. Its
`can_build_upon` tells a collator beforehand whether a block will be taken, and `post_inherents`
compares the block's timestamp with the slot.
-/

namespace Moonkit

abbrev Slot := U64

/-- Milliseconds. -/
abbrev SlotDuration := U64

/-- Milliseconds. -/
abbrev Timestamp := U64

namespace Slot

/-- `Slot::from_timestamp`, without a value where its division panics. -/
def fromTimestamp (timestamp : Timestamp) (slotDuration : SlotDuration) : Option Slot :=
  timestamp.checkedDiv slotDuration

/-- `Slot::timestamp`: when the slot begins, if that is representable. -/
def timestamp (slot : Slot) (slotDuration : SlotDuration) : Option Timestamp :=
  slotDuration.checkedMul slot

def debug (slot : Slot) : String := "Slot(" ++ toString slot.val ++ ")"

end Slot

namespace AsyncBacking

/-- How a parachain slot is found and checked against the relay slot. -/
abbrev GetAndVerifySlot := Slot → Outcome String Slot

/-- `RelaySlot` -/
def relaySlot : GetAndVerifySlot := fun relayChainSlot => .ok relayChainSlot

/-- `ParaSlot<RELAY_CHAIN_SLOT_DURATION_MILLIS, SlotProvider>` -/
def paraSlot (relayChainSlotDurationMillis : U32) (slotProvider : Slot × SlotDuration) :
    GetAndVerifySlot := fun relayChainSlot => do
  let relayChainTimestamp := (U64.ofU32 relayChainSlotDurationMillis).saturatingMul relayChainSlot
  let (newSlot, paraSlotDuration) := slotProvider
  let paraSlotFromRelay ← Outcome.expect
    (Slot.fromTimestamp relayChainTimestamp paraSlotDuration) "attempt to divide by zero"
  if newSlot = paraSlotFromRelay then pure newSlot else .err "Unexpected slot"

/-- The constants of a `FixedVelocityConsensusHook`. -/
structure Hook where
  relayChainSlotDurationMillis : U32
  /-- `V` -/
  velocity : U32
  /-- `C` -/
  capacity : U32

structure Env (Hash : Type) where
  allowMultipleBlocksPerSlot : Bool
  getAndVerifySlot : GetAndVerifySlot
  slotDuration : U64
  dbWeight : RuntimeDbWeight
  /-- The timestamp of the block. -/
  now : U64
  /-- The length of the unincluded segment after a block, as parachain-system keeps it. -/
  unincludedSegmentSizeAfter : Hash → U32

structure State (Hash : Type) where
  slotInfo : Option (Slot × U32)
  relayParentOffset : U32
  env : Env Hash

inductive DispatchError where
  | badOrigin
deriving DecidableEq

abbrev PalletCall (Hash α : Type) := Call (State Hash) DispatchError α

variable {Hash AccountId : Type}

namespace Hook

variable (hook : Hook)

/-- `V.max(1)` -/
def velocityOrOne : U32 := max hook.velocity (.lit 1)

/-- The slot and velocity checks of `on_state_proof_inner`: the number of blocks that were built
in the slot. -/
def checkVelocity (relayChainSlot : Slot) : PalletCall Hash U32 := do
  let s ← Call.get
  let authoredInRelay ← (match s.slotInfo with
    | some (slot, authored) =>
      if slot = relayChainSlot then do
        Call.assert s.env.allowMultipleBlocksPerSlot
          "Block invalid; Supplied slot number is not high enough"
        pure authored
      else if slot < relayChainSlot then pure 0
      else Call.panic ("Slot moved backwards: stored_slot=" ++ slot.debug
        ++ ", relay_chain_slot=" ++ relayChainSlot.debug)
    | none => pure 0)
  -- one block more than the velocity may be built, to fill the unincluded segment
  Call.assert (authoredInRelay ≤ hook.velocityOrOne)
    ("authored blocks limit is reached for the slot: relay_chain_slot=" ++ relayChainSlot.debug
      ++ ", authored=" ++ toString authoredInRelay.val
      ++ ", velocity=" ++ toString hook.velocityOrOne.val)
  pure authoredInRelay

/-- The rest of `on_state_proof_inner`, after the slot is stored. -/
def checkParaSlot (relayChainSlot : Slot) : PalletCall Hash (Weight × U32) := do
  let s ← Call.get
  let paraSlot ← Call.lift ((s.env.getAndVerifySlot relayChainSlot).expectOk "slot number mismatch")
  let relayChainTimestamp :=
    (U64.ofU32 hook.relayChainSlotDurationMillis).saturatingMul relayChainSlot
  let paraSlotFromRelay ← Call.expect
    (Slot.fromTimestamp relayChainTimestamp s.env.slotDuration) "attempt to divide by zero"
  Call.assert (paraSlot ≤ paraSlotFromRelay)
    ("Parachain slot is too far in the future: parachain_slot=" ++ paraSlot.debug
      ++ ", derived_from_relay_slot=" ++ paraSlotFromRelay.debug
      ++ " velocity=" ++ toString hook.velocityOrOne.val
      ++ ", relay_chain_slot=" ++ relayChainSlot.debug)
  pure (s.env.dbWeight.readsWrites (.lit 1) (.lit 1), max hook.capacity (.lit 1))

def onStateProofInner (relayChainSlot : Slot) : PalletCall Hash (Weight × U32) := do
  let authoredInRelay ← hook.checkVelocity relayChainSlot
  let authored ← Call.expect (authoredInRelay.checkedAdd (.lit 1)) "attempt to add with overflow"
  Call.modify fun s => { s with slotInfo := some (relayChainSlot, authored) }
  hook.checkParaSlot relayChainSlot

def canBuildUpon (s : State Hash) (includedHash : Hash) (newSlot : Slot) : Outcome String Bool :=
  match s.slotInfo with
  | none => pure true
  | some (lastSlot, authoredSoFar) =>
    if hook.capacity ≤ s.env.unincludedSegmentSizeAfter includedHash then pure false
    else if lastSlot = newSlot then do
      let limit ← Outcome.expect (hook.velocityOrOne.checkedAdd (.lit 1))
        "attempt to add with overflow"
      pure (authoredSoFar < limit)
    else pure (lastSlot < newSlot)

end Hook

def setRelayParentOffset [DecidableEq AccountId] (origin : RawOrigin AccountId) (new : U32) :
    PalletCall Hash Unit := do
  Call.ensure (origin = .root) .badOrigin
  Call.modify fun s => { s with relayParentOffset := new }

def postInherents : PalletCall Hash Unit := do
  let s ← Call.get
  Call.assert (s.env.slotDuration ≠ 0) "Nimbus slot duration cannot be zero."
  let timestampSlot ← Call.expect (s.env.now.checkedDiv s.env.slotDuration)
    "attempt to divide by zero"
  let (currentSlot, _) ← Call.expect s.slotInfo "Relay slot to exist"
  Call.assert (currentSlot = timestampSlot)
    ("The parachain timestamp slot must match the relay chain slot. This likely means that the "
      ++ "configured block time in the node and/or rest of the runtime is not compatible with "
      ++ "Nimbus's `SlotDuration`")

section Blocks

inductive Op (Hash AccountId : Type) where
  | onStateProofInner (relayChainSlot : Slot)
  | postInherents
  | setRelayParentOffset (origin : RawOrigin AccountId) (new : U32)
  /-- The rest of the runtime changes what the pallet reads. -/
  | elsewhere (env : Env Hash)

def Op.run [DecidableEq AccountId] (hook : Hook) : Op Hash AccountId → PalletCall Hash Unit
  | .onStateProofInner relayChainSlot => do
    let _ ← hook.onStateProofInner relayChainSlot
  | .postInherents => AsyncBacking.postInherents
  | .setRelayParentOffset origin new => AsyncBacking.setRelayParentOffset origin new
  | .elsewhere env => Call.modify fun s => { s with env := env }

/-- The pallet with its hook as a machine, from a genesis without a slot. -/
def machine (Hash AccountId : Type) [DecidableEq AccountId] (hook : Hook) :
    Machine (State Hash) (Op Hash AccountId) (Outcome DispatchError Unit) where
  genesis s := s.slotInfo = none
  exec s op := op.run hook s

abbrev RunEvent (Hash AccountId : Type) :=
  Machine.Event (State Hash) (Op Hash AccountId) (Outcome DispatchError Unit)

/-- The relay slot that an event was accepted in. -/
def acceptedSlot (e : RunEvent Hash AccountId) : Option Slot :=
  match e.op, e.answer with
  | .onStateProofInner relayChainSlot, .ok _ => some relayChainSlot
  | _, _ => none

/-- The number of blocks that were accepted in a relay slot. -/
def acceptedIn (h : List (RunEvent Hash AccountId)) (slot : Slot) : ℕ :=
  (h.filterMap acceptedSlot).count slot

/-- The operation does not panic: a block it panics in is not accepted, and leaves nothing. -/
def Completes [DecidableEq AccountId] (hook : Hook) (s : State Hash) (op : Op Hash AccountId) :
    Prop :=
  (op.run hook s).1.isPanic = false

instance [DecidableEq AccountId] (hook : Hook) (s : State Hash) (op : Op Hash AccountId) :
    Decidable (Completes hook s op) :=
  inferInstanceAs (Decidable (_ = _))

end Blocks

end AsyncBacking

end Moonkit
