import Moonkit.Base.Machine
import Moonkit.Primitives

/-!
# The foreign-asset-creator pallet

`pallets/foreign-asset-creator/src/lib.rs`. The pallet creates fungible assets for foreign assets,
and keeps the foreign asset of each asset id and the asset id of each foreign asset.
-/

namespace Moonkit

namespace ForeignAssetCreator

/-- What the runtime gives the pallet, on the part `X` of the runtime that is not the pallet's. -/
structure Config (Origin ForeignAsset AssetId AccountId Balance X E : Type) where
  foreignAssetCreatorOrigin : Origin → Bool
  foreignAssetModifierOrigin : Origin → Bool
  foreignAssetDestroyerOrigin : Origin → Bool
  fungiblesCreate : AssetId → AccountId → Bool → Balance → Call X E Unit
  fungiblesStartDestroy : AssetId → Option AccountId → Call X E Unit
  onForeignAssetCreated : ForeignAsset → AssetId → Balance → X → X
  onForeignAssetDestroyed : ForeignAsset → AssetId → X → X
  debug : ForeignAsset → String

inductive Error where
  | assetAlreadyExists
  | assetDoesNotExist
deriving DecidableEq

inductive DispatchError (E : Type) where
  | pallet (e : Error)
  | badOrigin
  | fungibles (e : E)
deriving DecidableEq

inductive Event (ForeignAsset AssetId : Type) where
  | foreignAssetCreated (assetId : AssetId) (foreignAsset : ForeignAsset)
  | foreignAssetTypeChanged (assetId : AssetId) (newForeignAsset : ForeignAsset)
  | foreignAssetRemoved (assetId : AssetId) (foreignAsset : ForeignAsset)
  | foreignAssetDestroyed (assetId : AssetId) (foreignAsset : ForeignAsset)
deriving DecidableEq

structure State (ForeignAsset AssetId X : Type) where
  /-- Mapping from an asset id to a foreign asset type. -/
  assetIdToForeignAsset : StorageMap AssetId ForeignAsset
  /-- Reverse mapping of `AssetIdToForeignAsset`. -/
  foreignAssetToAssetId : StorageMap ForeignAsset AssetId
  events : List (Event ForeignAsset AssetId)
  rest : X

variable {Origin ForeignAsset AssetId AccountId Balance X E : Type}

abbrev PalletCall (ForeignAsset AssetId X E α : Type) :=
  Call (State ForeignAsset AssetId X) (DispatchError E) α

def depositEvent (event : Event ForeignAsset AssetId) : PalletCall ForeignAsset AssetId X E Unit :=
  Call.modify fun s => { s with events := s.events ++ [event] }

/-- A call of the fungibles. -/
def onFungibles (x : Call X E Unit) : PalletCall ForeignAsset AssetId X E Unit :=
  (x.on State.rest fun rest s => { s with rest := rest }).handle fun e => Call.err (.fungibles e)

/-- A hook of the runtime. -/
def hook (f : X → X) : PalletCall ForeignAsset AssetId X E Unit :=
  Call.modify fun s => { s with rest := f s.rest }

variable [DecidableEq ForeignAsset] [DecidableEq AssetId]

/-- Insert the association in both directions. -/
def associate (foreignAsset : ForeignAsset) (assetId : AssetId) :
    PalletCall ForeignAsset AssetId X E Unit := do
  Call.modify fun s => { s with
    assetIdToForeignAsset := s.assetIdToForeignAsset.insert assetId foreignAsset }
  Call.modify fun s => { s with
    foreignAssetToAssetId := s.foreignAssetToAssetId.insert foreignAsset assetId }

/-- Remove the association in both directions. -/
def dissociate (foreignAsset : ForeignAsset) (assetId : AssetId) :
    PalletCall ForeignAsset AssetId X E Unit := do
  Call.modify fun s => { s with
    assetIdToForeignAsset := s.assetIdToForeignAsset.erase assetId }
  Call.modify fun s => { s with
    foreignAssetToAssetId := s.foreignAssetToAssetId.erase foreignAsset }

variable (C : Config Origin ForeignAsset AssetId AccountId Balance X E)

section Extrinsics

def createForeignAsset (origin : Origin) (foreignAsset : ForeignAsset) (assetId : AssetId)
    (admin : AccountId) (isSufficient : Bool) (minBalance : Balance) :
    PalletCall ForeignAsset AssetId X E Unit := do
  Call.ensure (C.foreignAssetCreatorOrigin origin) .badOrigin
  let s ← Call.get
  -- Ensure such an assetId does not exist
  Call.ensure ((s.assetIdToForeignAsset.lookup assetId).isNone) (.pallet .assetAlreadyExists)
  onFungibles (C.fungiblesCreate assetId admin isSufficient minBalance)
  associate foreignAsset assetId
  hook (C.onForeignAssetCreated foreignAsset assetId minBalance)
  depositEvent (.foreignAssetCreated assetId foreignAsset)

def changeExistingAssetType (origin : Origin) (assetId : AssetId)
    (newForeignAsset : ForeignAsset) : PalletCall ForeignAsset AssetId X E Unit := do
  Call.ensure (C.foreignAssetModifierOrigin origin) .badOrigin
  let s ← Call.get
  let previousForeignAsset ← Call.okOr (s.assetIdToForeignAsset.lookup assetId)
    (.pallet .assetDoesNotExist)
  associate newForeignAsset assetId
  -- Remove previous foreign asset info
  Call.modify fun s => { s with
    foreignAssetToAssetId := s.foreignAssetToAssetId.erase previousForeignAsset }
  depositEvent (.foreignAssetTypeChanged assetId newForeignAsset)

def removeExistingAssetType (origin : Origin) (assetId : AssetId) :
    PalletCall ForeignAsset AssetId X E Unit := do
  Call.ensure (C.foreignAssetDestroyerOrigin origin) .badOrigin
  let s ← Call.get
  let foreignAsset ← Call.okOr (s.assetIdToForeignAsset.lookup assetId)
    (.pallet .assetDoesNotExist)
  dissociate foreignAsset assetId
  depositEvent (.foreignAssetRemoved assetId foreignAsset)

def destroyForeignAsset (origin : Origin) (assetId : AssetId) :
    PalletCall ForeignAsset AssetId X E Unit := do
  Call.ensure (C.foreignAssetDestroyerOrigin origin) .badOrigin
  let s ← Call.get
  let foreignAsset ← Call.okOr (s.assetIdToForeignAsset.lookup assetId)
    (.pallet .assetDoesNotExist)
  onFungibles (C.fungiblesStartDestroy assetId none)
  dissociate foreignAsset assetId
  hook (C.onForeignAssetDestroyed foreignAsset assetId)
  depositEvent (.foreignAssetDestroyed assetId foreignAsset)

end Extrinsics

section Equivalence

/-- `MaybeEquivalence::convert` -/
def convert (s : State ForeignAsset AssetId X) (foreignAsset : ForeignAsset) : Option AssetId :=
  s.foreignAssetToAssetId.lookup foreignAsset

/-- `MaybeEquivalence::convert_back` -/
def convertBack (s : State ForeignAsset AssetId X) (id : AssetId) : Option ForeignAsset :=
  s.assetIdToForeignAsset.lookup id

end Equivalence

section Runs

/-- An asset of the genesis configuration. -/
structure GenesisAsset (ForeignAsset AssetId AccountId Balance : Type) where
  foreignAsset : ForeignAsset
  assetId : AssetId
  admin : AccountId
  isSufficient : Bool
  minBalance : Balance

/-- One pass of `GenesisConfig::build`. -/
def buildAsset (asset : GenesisAsset ForeignAsset AssetId AccountId Balance) :
    PalletCall ForeignAsset AssetId X E Unit := do
  let s ← Call.get
  -- Ensure such an assetId does not exist
  Call.assert ((s.assetIdToForeignAsset.lookup asset.assetId).isNone)
    ("asset id already exists while registering " ++ C.debug asset.foreignAsset)
  -- the text of an `expect` is not formatted
  (onFungibles (C.fungiblesCreate asset.assetId asset.admin asset.isSufficient
    asset.minBalance)).handle fun _ =>
      Call.panic "failed to create fungible while registering \x7bforeign_asset:?\x7d"
  associate asset.foreignAsset asset.assetId
  hook (C.onForeignAssetCreated asset.foreignAsset asset.assetId asset.minBalance)

/-- `GenesisConfig::build` -/
def build : List (GenesisAsset ForeignAsset AssetId AccountId Balance) →
    PalletCall ForeignAsset AssetId X E Unit
  | [] => pure ()
  | asset :: assets => do
    buildAsset C asset
    build assets

inductive Op (Origin ForeignAsset AssetId AccountId Balance X : Type) where
  | createForeignAsset (origin : Origin) (foreignAsset : ForeignAsset) (assetId : AssetId)
      (admin : AccountId) (isSufficient : Bool) (minBalance : Balance)
  | changeExistingAssetType (origin : Origin) (assetId : AssetId) (newForeignAsset : ForeignAsset)
  | removeExistingAssetType (origin : Origin) (assetId : AssetId)
  | destroyForeignAsset (origin : Origin) (assetId : AssetId)
  /-- Any other call of the runtime. -/
  | elsewhere (rest : X)

def Op.run : Op Origin ForeignAsset AssetId AccountId Balance X →
    PalletCall ForeignAsset AssetId X E Unit
  | .createForeignAsset origin foreignAsset assetId admin isSufficient minBalance =>
    ForeignAssetCreator.createForeignAsset C origin foreignAsset assetId admin isSufficient
      minBalance
  | .changeExistingAssetType origin assetId newForeignAsset =>
    ForeignAssetCreator.changeExistingAssetType C origin assetId newForeignAsset
  | .removeExistingAssetType origin assetId =>
    ForeignAssetCreator.removeExistingAssetType C origin assetId
  | .destroyForeignAsset origin assetId => ForeignAssetCreator.destroyForeignAsset C origin assetId
  | .elsewhere rest => Call.modify fun s => { s with rest := rest }

/-- The pallet as a machine, from a genesis with these assets that builds. What a call that fails
wrote is rolled back. -/
def machine (assets : List (GenesisAsset ForeignAsset AssetId AccountId Balance)) :
    Machine (State ForeignAsset AssetId X) (Op Origin ForeignAsset AssetId AccountId Balance X)
      (Outcome (DispatchError E) Unit) where
  genesis s := ∃ rest, build C assets ⟨∅, ∅, [], rest⟩ = (.ok (), s)
  exec s op := (op.run C).transactional s

abbrev RunEvent (Origin ForeignAsset AssetId AccountId Balance X E : Type) :=
  Machine.Event (State ForeignAsset AssetId X) (Op Origin ForeignAsset AssetId AccountId Balance X)
    (Outcome (DispatchError E) Unit)

end Runs

end ForeignAssetCreator

end Moonkit
