import Moonkit.Base.Uint
import Moonkit.Migrations

/-!
# The maintenance-mode pallet

`pallets/maintenance-mode/src/lib.rs`, with `xcm-support`. A privileged origin or a failed
migration puts the chain into maintenance mode, which suspends XCM execution.
`MaintenanceMode.machine` is a runtime with this pallet and the migrations pallet, both of them
configured with one XCM execution manager.
-/

namespace Moonkit

namespace MaintenanceMode

inductive Event (XcmError : Type) where
  | enteredMaintenanceMode
  | normalOperationResumed
  | failedToSuspendIdleXcmExecution (error : XcmError)
  | failedToResumeIdleXcmExecution (error : XcmError)
deriving DecidableEq

inductive Error where
  | alreadyInMaintenanceMode
  | notInMaintenanceMode
deriving DecidableEq

inductive DispatchError where
  | pallet (e : Error)
  | badOrigin
deriving DecidableEq

inductive FailedMigrationHandling where
  | forceUnstuck
  | keepStuck
  | ignore
deriving DecidableEq

/-- The pallet's storage, and the rest of the runtime. -/
structure State (X XcmError : Type) where
  maintenanceMode : Bool
  events : List (Event XcmError)
  rest : X

structure Config (Origin X XcmError : Type) where
  /-- The origins that `MaintenanceOrigin` lets pass. -/
  maintenanceOrigin : Origin → Bool
  xcmExecutionManager : PauseXcmExecution X XcmError

variable {Origin X XcmError : Type}

abbrev PalletCall (X XcmError α : Type) := Call (State X XcmError) DispatchError α

section Pallet

variable (C : Config Origin X XcmError)

def depositEvent {ε : Type} (event : Event XcmError) : Call (State X XcmError) ε Unit :=
  Call.modify fun s => { s with events := s.events ++ [event] }

/-- A call on the rest of the runtime. -/
def onRest {α : Type} (x : Call X XcmError α) : Call (State X XcmError) XcmError α :=
  x.on State.rest fun rest s => { s with rest := rest }

/-- `GenesisConfig::build` -/
def build (startInMaintenanceMode : Bool) (s : State X XcmError) : State X XcmError :=
  if startInMaintenanceMode then { s with maintenanceMode := true } else s

/-- Force the chain into maintenance mode without an origin check. -/
def doEnterMaintenanceMode : PalletCall X XcmError Unit := do
  Call.modify fun s => { s with maintenanceMode := true }
  (onRest C.xcmExecutionManager.suspendXcmExecution).handle fun error =>
    depositEvent (.failedToSuspendIdleXcmExecution error)
  depositEvent .enteredMaintenanceMode

def enterMaintenanceMode (origin : Origin) : PalletCall X XcmError Unit := do
  Call.ensure (C.maintenanceOrigin origin) .badOrigin
  let s ← Call.get
  Call.ensure (¬ s.maintenanceMode) (.pallet .alreadyInMaintenanceMode)
  doEnterMaintenanceMode C

def resumeNormalOperation (origin : Origin) : PalletCall X XcmError Unit := do
  Call.ensure (C.maintenanceOrigin origin) .badOrigin
  let s ← Call.get
  Call.ensure s.maintenanceMode (.pallet .notInMaintenanceMode)
  Call.modify fun s => { s with maintenanceMode := false }
  (onRest C.xcmExecutionManager.resumeXcmExecution).handle fun error =>
    depositEvent (.failedToResumeIdleXcmExecution error)
  depositEvent .normalOperationResumed

/-- `FailedMigrationHandler::failed` -/
def failed (_migration : Option U32) : PalletCall X XcmError FailedMigrationHandling := do
  doEnterMaintenanceMode C
  pure .forceUnstuck

end Pallet

section Runtime

/-- A runtime with both pallets: the maintenance-mode pallet is in the rest of the migrations
pallet. -/
abbrev Runtime (X XcmError : Type) := Migrations.State (State X XcmError) XcmError

inductive Op (Origin : Type) where
  | onRuntimeUpgrade (env : Migrations.Env)
  | onInitialize (env : Migrations.Env)
  | onFinalize
  | enterMaintenanceMode (origin : Origin)
  | resumeNormalOperation (origin : Origin)
  | failed (migration : Option U32)

variable (C : Config Origin X XcmError)

/-- The execution manager of the maintenance-mode pallet, as the migrations pallet calls it. -/
def sharedManager : PauseXcmExecution (State X XcmError) XcmError :=
  ⟨onRest C.xcmExecutionManager.suspendXcmExecution,
    onRest C.xcmExecutionManager.resumeXcmExecution⟩

/-- A call of the maintenance-mode pallet. -/
def inRuntime {α : Type} (x : PalletCall X XcmError α) :
    Call (Runtime X XcmError) DispatchError α :=
  x.on Migrations.State.rest fun rest s => { s with rest := rest }

/-- A hook of the migrations pallet. -/
def hook (op : Migrations.Op (State X XcmError)) : Call (Runtime X XcmError) DispatchError Unit :=
  (op.run (sharedManager C)).handle Empty.elim

def Op.run : Op Origin → Call (Runtime X XcmError) DispatchError Unit
  | .onRuntimeUpgrade env => hook C (.onRuntimeUpgrade env)
  | .onInitialize env => hook C (.onInitialize env)
  | .onFinalize => hook C .onFinalize
  | .enterMaintenanceMode origin => inRuntime (MaintenanceMode.enterMaintenanceMode C origin)
  | .resumeNormalOperation origin => inRuntime (MaintenanceMode.resumeNormalOperation C origin)
  | .failed migration => inRuntime do
    let _ ← MaintenanceMode.failed C migration
    pure ()

/-- Storage before genesis. -/
def State.empty (rest : X) : State X XcmError := ⟨false, [], rest⟩

/-- The runtime as a machine, from a genesis in normal mode. -/
def machine : Machine (Runtime X XcmError) (Op Origin) (Outcome DispatchError Unit) where
  genesis s := ∃ migrations rest,
    s = Migrations.build migrations (.empty (build false (.empty rest)))
  exec s op := op.run C s

abbrev RunEvent (Origin X XcmError : Type) :=
  Machine.Event (Runtime X XcmError) (Op Origin) (Outcome DispatchError Unit)

/-- How far the current block is: no hook has run, the upgrade has, or its `on_initialize` has. -/
inductive Phase where
  | outside
  | upgraded
  | initialized
deriving DecidableEq

def phase : List (RunEvent Origin X XcmError) → Phase
  | [] => .outside
  | e :: h =>
    match e.op with
    | .onRuntimeUpgrade _ => .upgraded
    | .onInitialize _ => .initialized
    | .onFinalize => .outside
    | _ => phase h

/-- Blocks follow each other, each with its hooks in order and with or without an upgrade; the
calls of the maintenance-mode pallet come at any time. -/
def InOrder (h : List (RunEvent Origin X XcmError)) : Op Origin → Prop
  | .onRuntimeUpgrade _ => phase h = .outside
  | .onInitialize _ => phase h ≠ .initialized
  | .onFinalize => phase h = .initialized
  | _ => True

instance (h : List (RunEvent Origin X XcmError)) (op : Op Origin) : Decidable (InOrder h op) := by
  unfold InOrder
  split <;> infer_instance

/-- The operation does not panic, so the block it is in can go on. -/
def Completes (s : Runtime X XcmError) (op : Op Origin) : Prop := (op.run C s).1.isPanic = false

instance (s : Runtime X XcmError) (op : Op Origin) : Decidable (Completes C s op) :=
  inferInstanceAs (Decidable (_ = _))

end Runtime

end MaintenanceMode

end Moonkit
