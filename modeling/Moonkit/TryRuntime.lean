import Moonkit.Migrations

/-!
# The try-runtime hooks of the migrations pallet

`pallets/migrations/src/lib.rs`, under the feature `try-runtime`. Before an upgrade `pre_upgrade`
lets every migration that is not done check the state, and encodes what they return; after it
`post_upgrade` hands each its part of that.
-/

namespace Moonkit

namespace Migrations

/-- A migration with its try-runtime hooks, on the part `X` of the runtime that is not the pallet's
storage. -/
structure TryMigration (X DispatchError : Type) extends Migration where
  preUpgrade : X → Except DispatchError (List UInt8) × X
  postUpgrade : List UInt8 → X → Except DispatchError Unit × X

/-- The runtime, with the calls that the pallet has made of `pre_upgrade` and what they returned,
and of `post_upgrade` with the bytes it gave to each and what they returned. -/
structure TryState (X DispatchError : Type) where
  runtime : State X DispatchError
  preCalls : List (List UInt8 × Except DispatchError (List UInt8))
  postCalls : List (List UInt8 × List UInt8 × Except DispatchError Unit)

/-- `DispatchError::Other` -/
inductive TryError where
  | other (message : String)
deriving DecidableEq

/-- The maps that `pre_upgrade` leaves for `post_upgrade`: whether a migration is performed, and
what its `pre_upgrade` returned. -/
abbrev Hints := StorageMap (List UInt8) Bool × StorageMap (List UInt8) (List UInt8)

variable {X DispatchError : Type}

abbrev TryCall (X DispatchError α : Type) := Call (TryState X DispatchError) TryError α

namespace TryMigration

variable (migration : TryMigration X DispatchError)

/-- The call of `pre_upgrade`. -/
def invokePreUpgrade : TryCall X DispatchError (Except DispatchError (List UInt8)) := fun s =>
  let (answer, rest) := migration.preUpgrade s.runtime.rest
  (.ok answer, { s with
    runtime := { s.runtime with rest := rest }
    preCalls := s.preCalls ++ [(migration.friendlyName, answer)] })

/-- The call of `post_upgrade`. -/
def invokePostUpgrade (state : List UInt8) : TryCall X DispatchError (Except DispatchError Unit) :=
  fun s =>
    let (answer, rest) := migration.postUpgrade state s.runtime.rest
    (.ok answer, { s with
      runtime := { s.runtime with rest := rest }
      postCalls := s.postCalls ++ [(migration.friendlyName, state, answer)] })

end TryMigration

section PreUpgrade

/-- `format!("migration {} pre_upgrade()", migration_name)`; the panic shows the error after it. -/
def preUpgradeMessage (name : List UInt8) : String :=
  "migration " ++ (String.fromUTF8? ⟨name.toArray⟩).getD "" ++ " pre_upgrade()"

/-- One pass of the loop of `pre_upgrade`. -/
def preUpgradeStep (migration : TryMigration X DispatchError) (hints : Hints) :
    TryCall X DispatchError Hints := do
  let s ← Call.get
  if s.runtime.migrationDone migration.friendlyName then pure hints
  else do
    let answer ← migration.invokePreUpgrade
    let state ← Call.expect answer.toOption (preUpgradeMessage migration.friendlyName)
    pure (hints.1.insert migration.friendlyName true, hints.2.insert migration.friendlyName state)

def preUpgradeLoop : List (TryMigration X DispatchError) → Hints → TryCall X DispatchError Hints
  | [], hints => pure hints
  | migration :: migrations, hints => do
    let hints ← preUpgradeStep migration hints
    preUpgradeLoop migrations hints

/-- `encode` is the SCALE encoding of the maps. -/
def preUpgrade (encode : Hints → List UInt8) (migrations : List (TryMigration X DispatchError)) :
    TryCall X DispatchError (List UInt8) := do
  let hints ← preUpgradeLoop migrations (∅, ∅)
  pure (encode hints)

end PreUpgrade

section PostUpgrade

/-- One pass of the loop of `post_upgrade`: whether one has failed before it, or after it. -/
def postUpgradeStep (hints : Hints) (migration : TryMigration X DispatchError) (failed : Bool) :
    TryCall X DispatchError Bool :=
  match hints.1.lookup migration.friendlyName with
  | none => pure failed
  | some value => do
    Call.assert value "our dummy value might as well be true"
    match hints.2.lookup migration.friendlyName with
    | none => pure failed
    | some state => do
      let result ← migration.invokePostUpgrade state
      pure (failed || !result.toBool)

def postUpgradeLoop (hints : Hints) :
    List (TryMigration X DispatchError) → Bool → TryCall X DispatchError Bool
  | [], failed => pure failed
  | migration :: migrations, failed => do
    let failed ← postUpgradeStep hints migration failed
    postUpgradeLoop hints migrations failed

/-- `decode` is the SCALE decoding of the maps. -/
def postUpgrade (decode : List UInt8 → Option Hints)
    (migrations : List (TryMigration X DispatchError)) (state : List UInt8) :
    TryCall X DispatchError Unit := do
  let hints ← Call.expect (decode state) "pre_upgrade provides a valid state; qed"
  let failed ← postUpgradeLoop hints migrations false
  if failed then Call.err (.other "One or more post_upgrade tests failed; see output above.")
  else pure ()

end PostUpgrade

end Migrations

end Moonkit
