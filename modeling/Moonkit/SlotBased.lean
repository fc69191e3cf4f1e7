import Moonkit.AsyncBacking
import Moonkit.NimbusConsensus

/-!
# The slot-based collator

`client/consensus/nimbus-consensus/src/collators.rs` and `collators/slot_based/`. The collator
takes the relay slot of the relay parent, derives a parachain slot and a timestamp from it, and
asks the runtime of the parent block whether it may build on it.
-/

namespace Moonkit

namespace NimbusConsensus

open AsyncBacking (Hook)

variable {Hash : Type}

/-- Whole milliseconds. -/
abbrev Duration := ℕ

/-- `duration.as_millis() as u64` -/
def Duration.asU64 (duration : Duration) : U64 :=
  ⟨duration % 2 ^ 64, Nat.le_sub_one_of_lt (Nat.mod_lt _ (by decide))⟩

structure SlotInfo where
  timestamp : Timestamp
  slot : Slot
deriving DecidableEq

/-- Translate the slot of the relay parent, as its BABE pre-digest gives it, to the slot of the
parachain. -/
def adjustParaToRelayParentSlot (babeSlot : Option Slot) (relayChainSlotDuration : Duration)
    (paraSlotDuration : SlotDuration) : Outcome String (Option SlotInfo) :=
  match babeSlot.bind fun relaySlot => relaySlot.timestamp relayChainSlotDuration.asU64 with
  | none => pure none
  | some timestamp => do
    let newSlot ← Outcome.expect (Slot.fromTimestamp timestamp paraSlotDuration)
      "attempt to divide by zero"
    pure ((newSlot.timestamp paraSlotDuration).map fun timestamp => ⟨timestamp, newSlot⟩)

/-- What the runtime of a block answers through `UnincludedSegmentApi`. -/
structure UnincludedSegmentApi (Hash : Type) where
  apiVersion : Hash → Except String (Option U32)
  canBuildUpon : Hash → Hash → Slot → Except String Bool

/-- The API as the template runtime implements it: declared without an `api_version`, so its
version is 1, and answered by the consensus hook on the state of the block. A call that panics
is an error of the API. -/
def runtimeApi (hook : Hook) (stateAt : Hash → AsyncBacking.State Hash) :
    UnincludedSegmentApi Hash where
  apiVersion _ := .ok (some (.lit 1))
  canBuildUpon parentHash includedHash slot :=
    match hook.canBuildUpon (stateAt parentHash) includedHash slot with
    | .ok verdict => .ok verdict
    | .err e => .error e
    | .panic m => .error m

/-- `can_build_upon` of the collators. `claimSlot` is what `claim_slot` returned. -/
def canBuildUpon [DecidableEq Hash] (api : UnincludedSegmentApi Hash)
    (claimSlot : Except String (Option NimbusId)) (paraSlot relaySlot : Slot)
    (timestamp : Timestamp) (parentHash includedBlock : Hash) : Option SlotClaim := do
  let authorPub ← claimSlot.toOption.join
  if parentHash = includedBlock then some ⟨authorPub, timestamp⟩
  else
    let apiVersion ← (api.apiVersion parentHash).toOption.join
    let slot := if .lit 1 < apiVersion then relaySlot else paraSlot
    let verdict ← (api.canBuildUpon parentHash includedBlock slot).toOption
    if verdict then some ⟨authorPub, timestamp⟩ else none

end NimbusConsensus

end Moonkit
