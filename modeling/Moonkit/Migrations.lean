import Moonkit.Base.Machine
import Moonkit.Base.Weight
import Moonkit.Primitives

/-!
# The migrations pallet

`pallets/migrations/src/lib.rs`. A runtime upgrade performs the listed migrations that are not
recorded as done, and pauses XCM execution from the `on_initialize` to the `on_finalize` of its
block. `Migrations.machine` takes a chain from the genesis of a list of migrations through its
upgrades.
-/

namespace Moonkit

namespace Migrations

/-- A migration: the bytes of its name, and the weight it consumes of what it is given. What it
does to the rest of the runtime the pallet does not read. -/
structure Migration where
  friendlyName : List UInt8
  migrate : Weight → Weight

/-- What the code of the runtime gives the pallet. -/
structure Env where
  migrationsList : List Migration
  maxBlock : Weight
  dbWeight : RuntimeDbWeight

inductive Event (DispatchError : Type) where
  | runtimeUpgradeStarted
  | runtimeUpgradeCompleted (weight : Weight)
  | migrationStarted (migrationName : List UInt8)
  | migrationCompleted (migrationName : List UInt8) (consumedWeight : Weight)
  | failedToSuspendIdleXcmExecution (error : DispatchError)
  | failedToResumeIdleXcmExecution (error : DispatchError)
deriving DecidableEq

/-- The pallet's storage, the calls of `migrate` it has made with the weight it gave to each, and
the rest of the runtime. -/
structure State (X DispatchError : Type) where
  fullyUpgraded : Bool
  migrationState : StorageMap (List UInt8) Bool
  shouldPauseXcm : Bool
  events : List (Event DispatchError)
  calls : List (List UInt8 × Weight)
  rest : X

variable {X DispatchError : Type}

/-- The pallet has hooks only, which answer no error. -/
abbrev PalletCall (X DispatchError α : Type) := Call (State X DispatchError) Empty α

/-- `MigrationState::get` -/
def State.migrationDone (s : State X DispatchError) (name : List UInt8) : Bool :=
  (s.migrationState.lookup name).getD false

def depositEvent (event : Event DispatchError) : PalletCall X DispatchError Unit :=
  Call.modify fun s => { s with events := s.events ++ [event] }

/-- `GenesisConfig::build` -/
def build (migrations : List Migration) (s : State X DispatchError) : State X DispatchError :=
  (migrations.map Migration.friendlyName).foldl
    (fun s name => { s with migrationState := s.migrationState.insert name true }) s

section Upgrade

/-- What is left for the next migration; `weight` was consumed before it. -/
def availableForStep (availableWeight weight : Weight) : PalletCall X DispatchError Weight :=
  if weight.refTime < availableWeight.refTime then
    Call.expect (availableWeight.checkedSub weight) "attempt to subtract with overflow"
  else pure 0

/-- The call of `migrate`. -/
def invoke (migration : Migration) (available : Weight) : PalletCall X DispatchError Weight :=
  fun s => (.ok (migration.migrate available),
    { s with calls := s.calls ++ [(migration.friendlyName, available)] })

/-- One pass of the loop of `perform_runtime_upgrades`, from the weight consumed before it to the
weight consumed after it. -/
def performMigration (availableWeight : Weight) (migration : Migration) (weight : Weight) :
    PalletCall X DispatchError Weight := do
  let s ← Call.get
  if s.migrationDone migration.friendlyName then pure weight
  else do
    depositEvent (.migrationStarted migration.friendlyName)
    let available ← availableForStep availableWeight weight
    let consumedWeight ← invoke migration available
    depositEvent (.migrationCompleted migration.friendlyName consumedWeight)
    Call.modify fun s =>
      { s with migrationState := s.migrationState.insert migration.friendlyName true }
    pure (weight.saturatingAdd consumedWeight)

def performMigrations (availableWeight : Weight) :
    List Migration → Weight → PalletCall X DispatchError Weight
  | [], weight => pure weight
  | migration :: migrations, weight => do
    let weight ← performMigration availableWeight migration weight
    performMigrations availableWeight migrations weight

def performRuntimeUpgrades (env : Env) (availableWeight : Weight) :
    PalletCall X DispatchError Weight := do
  let weight ← performMigrations availableWeight env.migrationsList 0
  Call.modify fun s => { s with fullyUpgraded := true }
  let weight := weight.saturatingAdd (env.dbWeight.writes (.lit 1))
  depositEvent (.runtimeUpgradeCompleted weight)
  pure weight

def onRuntimeUpgrade (env : Env) : PalletCall X DispatchError Weight := do
  Call.modify fun s => { s with shouldPauseXcm := true }
  let availableWeight := env.maxBlock
  Call.modify fun s => { s with fullyUpgraded := false }
  let weight := (0 : Weight).saturatingAdd (env.dbWeight.writes (.lit 1))
  depositEvent .runtimeUpgradeStarted
  let _ ← performRuntimeUpgrades env (availableWeight.saturatingSub weight)
  -- Consume all block weight to ensure no user transactions inclusion.
  pure env.maxBlock

end Upgrade

section Hooks

variable (xcmExecutionManager : PauseXcmExecution X DispatchError)

/-- A call of the XCM execution manager. -/
def onRest {α : Type} (x : Call X DispatchError α) : Call (State X DispatchError) DispatchError α :=
  x.on State.rest fun rest s => { s with rest := rest }

def onInitialize (env : Env) : PalletCall X DispatchError Weight := do
  let s ← Call.get
  if s.shouldPauseXcm then do
    (onRest xcmExecutionManager.suspendXcmExecution).handle fun error =>
      depositEvent (.failedToSuspendIdleXcmExecution error)
    pure (env.dbWeight.readsWrites (.lit 1) (.lit 1))
  else pure (env.dbWeight.reads (.lit 1))

def onFinalize : PalletCall X DispatchError Unit := do
  let s ← Call.get
  if s.shouldPauseXcm then do
    (onRest xcmExecutionManager.resumeXcmExecution).handle fun error =>
      depositEvent (.failedToResumeIdleXcmExecution error)
    Call.modify fun s => { s with shouldPauseXcm := false }
  else pure ()

end Hooks

section Blocks

inductive Op (X : Type) where
  /-- The first block of a new runtime begins. -/
  | onRuntimeUpgrade (env : Env)
  | onInitialize (env : Env)
  | onFinalize
  /-- Any other call of the runtime. -/
  | elsewhere (rest : X)

variable (xcmExecutionManager : PauseXcmExecution X DispatchError)

def Op.run : Op X → PalletCall X DispatchError Unit
  | .onRuntimeUpgrade env => do
    let _ ← Migrations.onRuntimeUpgrade env
    pure ()
  | .onInitialize env => do
    let _ ← Migrations.onInitialize xcmExecutionManager env
    pure ()
  | .onFinalize => Migrations.onFinalize xcmExecutionManager
  | .elsewhere rest => Call.modify fun s => { s with rest := rest }

/-- Storage before genesis. -/
def State.empty (rest : X) : State X DispatchError := ⟨false, ∅, false, [], [], rest⟩

/-- The pallet as a machine, from the genesis of a runtime with these migrations. -/
def machine (genesisMigrations : List Migration) :
    Machine (State X DispatchError) (Op X) (Outcome Empty Unit) where
  genesis s := ∃ rest, s = build genesisMigrations (.empty rest)
  exec s op := op.run xcmExecutionManager s

abbrev RunEvent (X DispatchError : Type) :=
  Machine.Event (State X DispatchError) (Op X) (Outcome Empty Unit)

/-- The operation does not panic, so the block it is in can go on. -/
def Completes (s : State X DispatchError) (op : Op X) : Prop :=
  (op.run xcmExecutionManager s).1.isPanic = false

instance (s : State X DispatchError) (op : Op X) : Decidable (Completes xcmExecutionManager s op) :=
  inferInstanceAs (Decidable (_ = _))

end Blocks

end Migrations

end Moonkit
