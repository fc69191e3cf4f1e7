import Moonkit.Base.Effect
import Moonkit.Base.Machine
import Moonkit.Base.Uint

/-!
# The emergency-para-xcm pallet

`pallets/emergency-para-xcm/src/lib.rs`. Where the relay block number goes up by more than a
threshold from one block to the next, the pallet pauses the execution of XCM until a privileged
origin resumes it. It stands in for the check of the relay number and for the query for a paused
queue, and asks those it stands in for.
-/

namespace Moonkit

namespace EmergencyParaXcm

abbrev RelayChainBlockNumber := U32

inductive XcmMode where
  | normal
  | paused
deriving DecidableEq

inductive Event where
  | enteredPausedXcmMode
  | normalXcmOperationResumed
deriving DecidableEq

inductive Error where
  | notInPausedMode
deriving DecidableEq

inductive DispatchError (E : Type) where
  | pallet (e : Error)
  | badOrigin
  | system (e : E)
deriving DecidableEq

/-- The configuration of the pallet in a runtime, whose other storage is `X`. -/
structure Config (Origin MessageOrigin Hash X E : Type) where
  /-- The check that this pallet stands in for. -/
  checkAssociatedRelayNumber : RelayChainBlockNumber → RelayChainBlockNumber →
    Call X (DispatchError E) Unit
  /-- The query that this pallet stands in for. -/
  queuePausedQuery : MessageOrigin → X → Bool
  pausedThreshold : RelayChainBlockNumber
  fastAuthorizeUpgradeOrigin : Origin → Bool
  pausedToNormalOrigin : Origin → Bool
  /-- `frame_system::Pallet::authorize_upgrade`, by root. -/
  authorizeUpgrade : Hash → Call X E Unit
  /-- Whether the build panics where an addition overflows, or wraps. -/
  overflowChecks : Bool

structure State (X : Type) where
  mode : XcmMode
  events : List Event
  rest : X

variable {Origin MessageOrigin Hash X E : Type}

abbrev PalletCall (X E α : Type) := Call (State X) (DispatchError E) α

def depositEvent (event : Event) : PalletCall X E Unit :=
  Call.modify fun s => { s with events := s.events ++ [event] }

def setMode (mode : XcmMode) : PalletCall X E Unit := Call.modify fun s => { s with mode := mode }

def onRest {ε : Type} (x : Call X ε Unit) : Call (State X) ε Unit :=
  x.on State.rest fun rest s => { s with rest := rest }

variable (C : Config Origin MessageOrigin Hash X E)

def pausedToNormal (origin : Origin) : PalletCall X E Unit := do
  Call.ensure (C.pausedToNormalOrigin origin) .badOrigin
  let s ← Call.get
  Call.ensure (s.mode = .paused) (.pallet .notInPausedMode)
  setMode .normal
  depositEvent .normalXcmOperationResumed

def fastAuthorizeUpgrade (origin : Origin) (codeHash : Hash) : PalletCall X E Unit := do
  Call.ensure (C.fastAuthorizeUpgradeOrigin origin) .badOrigin
  let s ← Call.get
  Call.ensure (s.mode = .paused) (.pallet .notInPausedMode)
  (onRest (C.authorizeUpgrade codeHash)).handle fun e => Call.err (.system e)

/-- `previous + T::PausedThreshold::get()` -/
def pausedLimit (previous : RelayChainBlockNumber) : PalletCall X E RelayChainBlockNumber :=
  match previous.checkedAdd C.pausedThreshold with
  | some limit => pure limit
  | none =>
    if C.overflowChecks then Call.panic "attempt to add with overflow"
    else pure (previous.wrappingAdd C.pausedThreshold)

/-- `CheckAssociatedRelayNumber::check_associated_relay_number` -/
def checkAssociatedRelayNumber (current previous : RelayChainBlockNumber) :
    PalletCall X E Unit := do
  onRest (C.checkAssociatedRelayNumber current previous)
  if previous ≠ 0 then do
    let limit ← pausedLimit C previous
    if limit < current then do
      setMode .paused
      depositEvent .enteredPausedXcmMode

/-- `QueuePausedQuery::is_paused` -/
def isPaused (s : State X) (origin : MessageOrigin) : Bool :=
  if s.mode = .normal then C.queuePausedQuery origin s.rest else true

section Runs

inductive Op (Origin Hash X : Type) where
  | checkAssociatedRelayNumber (current previous : RelayChainBlockNumber)
  | pausedToNormal (origin : Origin)
  | fastAuthorizeUpgrade (origin : Origin) (codeHash : Hash)
  /-- The rest of the runtime changes. -/
  | elsewhere (rest : X)

def Op.run : Op Origin Hash X → PalletCall X E Unit
  | .checkAssociatedRelayNumber current previous =>
    EmergencyParaXcm.checkAssociatedRelayNumber C current previous
  | .pausedToNormal origin => EmergencyParaXcm.pausedToNormal C origin
  | .fastAuthorizeUpgrade origin codeHash =>
    EmergencyParaXcm.fastAuthorizeUpgrade C origin codeHash
  | .elsewhere rest => Call.modify fun s => { s with rest := rest }

/-- The pallet as a machine, from a genesis in normal mode. What a call that fails and a block that
panics wrote is gone. -/
def machine : Machine (State X) (Op Origin Hash X) (Outcome (DispatchError E) Unit) where
  genesis s := s.mode = .normal
  exec s op := (op.run C).transactional s

abbrev RunEvent (Origin Hash X E : Type) :=
  Machine.Event (State X) (Op Origin Hash X) (Outcome (DispatchError E) Unit)

end Runs

end EmergencyParaXcm

end Moonkit
