import Moonkit.Base.Machine
import Moonkit.Base.Uint
import Moonkit.Base.Window
import Moonkit.Primitives

/-!
# The relay-storage-roots pallet

`pallets/relay-storage-roots/src/lib.rs`. At the end of each block the pallet stores the storage
root of the current relay block under its number, and a list of the numbers in the order they were
stored, so that the oldest root goes where there are more than `MaxStorageRoots`.
-/

namespace Moonkit

namespace RelayStorageRoots

structure RelayChainState where
  number : U32
  stateRoot : H256

structure State (maxStorageRoots : U32) where
  relayStorageRoot : StorageMap U32 H256
  relayStorageRootKeys : BoundedVec U32 maxStorageRoots.val

variable {maxStorageRoots : U32}

abbrev PalletCall (maxStorageRoots : U32) (α : Type) := Call (State maxStorageRoots) Empty α

/-- `u32::try_from(keys.len()).unwrap_or(u32::MAX)` -/
def lenU32 (keys : List U32) : U32 := ⟨min keys.length (2 ^ 32 - 1), min_le_right _ _⟩

/-- The oldest key and the other ones, where the total number is greater than `MaxStorageRoots`. -/
def popOldest (maxStorageRoots : U32) (keys : List U32) : Option U32 × List U32 :=
  if maxStorageRoots < lenU32 keys then (keys.head?, keys.tail) else (none, keys)

/-- Populates `RelayStorageRoot` from the current relay chain state. -/
def setRelayStorageRoot (relayState : RelayChainState) : PalletCall maxStorageRoots Unit := do
  let s ← Call.get
  -- If this relay block number has already been stored, skip it.
  if (s.relayStorageRoot.lookup relayState.number).isSome then pure ()
  else do
    Call.modify fun s => { s with
      relayStorageRoot := s.relayStorageRoot.insert relayState.number relayState.stateRoot }
    let keys := s.relayStorageRootKeys.val ++ [relayState.number]
    let (firstKey, keys) := popOldest maxStorageRoots keys
    match firstKey with
    | some firstKey =>
      Call.modify fun s => { s with relayStorageRoot := s.relayStorageRoot.erase firstKey }
    | none => pure ()
    Call.modify fun s => { s with relayStorageRootKeys := .truncateFrom keys }

/-- The pallet as a machine: at the end of each block it is given a relay chain state. -/
def machine (maxStorageRoots : U32) :
    Machine (State maxStorageRoots) RelayChainState (Outcome Empty Unit) where
  genesis s := s = ⟨∅, ∅⟩
  exec s relayState := setRelayStorageRoot relayState s

abbrev RunEvent (maxStorageRoots : U32) :=
  Machine.Event (State maxStorageRoots) RelayChainState (Outcome Empty Unit)

abbrev Run (maxStorageRoots : U32) :=
  (machine maxStorageRoots).Run fun _ _ _ => True

end RelayStorageRoots

end Moonkit
