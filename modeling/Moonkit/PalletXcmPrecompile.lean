import Moonkit.Base.Basket
import Moonkit.ForeignAssetCreator
import Moonkit.Precompiles
import Moonkit.XcmPrimitives

/-!
# The pallet-xcm precompile

`precompiles/pallet-xcm/src/lib.rs`. A contract sends assets to other chains through `pallet_xcm`.
It names the assets by their locations, or by their addresses on this chain, which stand for the
locations that the foreign-asset-creator pallet holds for them.
-/

namespace Moonkit

namespace PalletXcm

open Precompile Xcm

section Data

variable {N J C : Type}

/-- A fungible asset. -/
structure Asset (N J : Type) where
  id : Location N J
  fungible : U128

def Asset.entry (a : Asset N J) : Location N J × ℕ := (a.id, a.fungible.val)

inductive TransferType (N J : Type) where
  | teleport
  | localReserve
  | destinationReserve
  | remoteReserve (reserve : Location N J)

inductive WeightLimit where
  | unlimited
  | limited (refTime proofSize : U64)

/-- The calls of `pallet_xcm` that are made here; `C` are XCM messages. -/
inductive XcmCall (N J C : Type) where
  | transferAssets (dest beneficiary : Location N J) (assets : List (Asset N J))
      (feeAssetItem : U32) (weightLimit : WeightLimit)
  | transferAssetsUsingTypeAndThen (dest : Location N J) (assets : List (Asset N J))
      (assetsTransferType : TransferType N J) (remoteFeesId : Location N J)
      (feesTransferType : TransferType N J) (customXcmOnDest : C) (weightLimit : WeightLimit)

inductive TransferTypeHelper where
  | teleport
  | localReserve
  | destinationReserve

def TransferTypeHelper.decode (data : UInt8) : Option TransferTypeHelper :=
  match data.toNat with
  | 0 => some teleport
  | 1 => some localReserve
  | 2 => some destinationReserve
  | _ => none

def maxAssetsArrayLimit : ℕ := 2

def xcmSizeLimit : ℕ := 2 ^ 16

abbrev ByLocation (N J : Type) := BoundedVec (Location N J × U128) maxAssetsArrayLimit

abbrev ByAddress := BoundedVec (H160 × U128) maxAssetsArrayLimit

/-- What the runtime is configured with. `assetsFrom` is `Assets::from`, which sorts the assets and
puts the amounts of one asset together; `decodeXcm` decodes a whole message up to the depth limit;
`dispatch` is `pallet_xcm`, whose storage is in the part `X` of the runtime. -/
structure Config (N J A I X C E M : Type) [LinearOrder (Location N J)] where
  metering : Metering M
  intoAccountId : H160 → A
  accounts : Accounts A I
  matchers : List Matcher
  locationMaxEncodedLen : ℕ
  assetsFrom : List (Asset N J) → List (Asset N J)
  assetsFrom_merges : ∀ l, Basket.Merges (2 ^ 128 - 1) (l.map Asset.entry)
    ((assetsFrom l).map Asset.entry)
  decodeXcm : List UInt8 → Option C
  dispatch : A → XcmCall N J C → X → Except E X
  debug : E → String

/-- `sent` is not stored: it is what `pallet_xcm` was asked for, and by whom. -/
structure State (N J A I X C : Type) where
  storage : ForeignAssetCreator.State (Location N J) I X
  sent : List (A × XcmCall N J C)

end Data

section Functions

variable {N J A I X C E M : Type} [LinearOrder (Location N J)] [DecidableEq A] [DecidableEq I]
  (cfg : Config N J A I X C E M)

abbrev XcmPrecompileCall (N J A I X C M α : Type) :=
  Call (State N J A I X C × M) PrecompileFailure α

/-- A call of `pallet_xcm` with the origin `who`. -/
def dispatchXcm (who : A) (call : XcmCall N J C) (s : State N J A I X C) :
    Except E (State N J A I X C) :=
  (cfg.dispatch who call s.storage.rest).map fun rest =>
    { storage := { s.storage with rest := rest }, sent := s.sent ++ [(who, call)] }

/-- Convert each asset into a proper location. -/
def convertAssets : List (H160 × U128) →
    XcmPrecompileCall N J A I X C M (List (Location N J × U128))
  | [] => pure []
  | asset :: assets => do
    let s ← storage
    let assetLoc ← Call.okOr (convert cfg.accounts cfg.matchers
      (ForeignAssetCreator.convertBack s.storage) (cfg.intoAccountId asset.1))
      (revert "Asset not found")
    let assetsToSend ← convertAssets assets
    pure ((assetLoc, asset.2) :: assetsToSend)

def getAssetsToSendAndRemoteFees (assets : List (Location N J × U128))
    (remoteFeesIdIndex : Option ℕ) :
    Outcome PrecompileFailure (List (Asset N J) × Option (Location N J)) :=
  let assetsToSend := cfg.assetsFrom (assets.map fun asset => ⟨asset.1, asset.2⟩)
  match remoteFeesIdIndex with
  | some index => do
    let asset ← Outcome.okOr assetsToSend[index]? (revert "remote_fees_id not found")
    pure (assetsToSend, some asset.id)
  | none => pure (assetsToSend, none)

def parseTransferType (transferType : UInt8) : Outcome PrecompileFailure (TransferType N J) := do
  let helper ← Outcome.okOr (TransferTypeHelper.decode transferType)
    (revert "Failed decoding value for TransferTypeHelper")
  match helper with
  | .teleport => pure .teleport
  | .localReserve => pure .localReserve
  | .destinationReserve => pure .destinationReserve

def parseTransferTypes (assetsTransferType feesTransferType : UInt8) :
    Outcome PrecompileFailure (TransferType N J × TransferType N J) := do
  let assetsTransferType ← parseTransferType assetsTransferType
  let feesTransferType ← parseTransferType feesTransferType
  pure (assetsTransferType, feesTransferType)

/-- The read of storage that a matcher may make. -/
def recordLocationRead : XcmPrecompileCall N J A I X C M Unit :=
  meter (cfg.metering.recordDbRead (32 + cfg.locationMaxEncodedLen))

/-- An arbitrary amount of gas, to prevent spam. -/
def recordSpam : XcmPrecompileCall N J A I X C M Unit := meter (cfg.metering.recordCost (.lit 1000))

/-- What the calls share that end in `transfer_assets`. -/
def transferAssets (ctx : Context) (dest beneficiary : Location N J)
    (assets : List (Location N J × U128)) (feeAssetItem : U32) :
    XcmPrecompileCall N J A I X C M Unit := do
  let (assetsToSend, _) ← Call.lift (getAssetsToSendAndRemoteFees cfg assets none)
  tryDispatch cfg.metering cfg.debug (dispatchXcm cfg (cfg.intoAccountId ctx.caller)
    (.transferAssets dest beneficiary assetsToSend feeAssetItem .unlimited)) 0

/-- What the calls share that end in `transfer_assets_using_type_and_then`. -/
def transferAssetsUsingTypeAndThen (ctx : Context) (dest : Location N J)
    (assets : List (Location N J × U128)) (remoteFeesIdIndex : UInt8)
    (transferTypes : Outcome PrecompileFailure (TransferType N J × TransferType N J))
    (customXcmOnDest : BoundedVec UInt8 xcmSizeLimit) : XcmPrecompileCall N J A I X C M Unit := do
  let (assetsToSend, remoteFeesId) ← Call.lift
    (getAssetsToSendAndRemoteFees cfg assets (some remoteFeesIdIndex.toNat))
  let remoteFeesId ← Call.okOr remoteFeesId (revert "remote_fees_id not found")
  let (assetsTransferType, feesTransferType) ← Call.lift transferTypes
  let customXcmOnDest ← Call.okOr (cfg.decodeXcm customXcmOnDest.val)
    (revert "Failed decoding custom XCM message")
  tryDispatch cfg.metering cfg.debug (dispatchXcm cfg (cfg.intoAccountId ctx.caller)
    (.transferAssetsUsingTypeAndThen dest assetsToSend assetsTransferType remoteFeesId
      feesTransferType customXcmOnDest .unlimited)) 0

def transferAssetsLocation (ctx : Context) (dest beneficiary : Location N J)
    (assets : ByLocation N J) (feeAssetItem : U32) : XcmPrecompileCall N J A I X C M Unit := do
  recordSpam cfg
  transferAssets cfg ctx dest beneficiary assets.val feeAssetItem

def transferAssetsToPara20 (ctx : Context) (paraId : U32) (beneficiary : H160)
    (assets : ByAddress) (feeAssetItem : U32) : XcmPrecompileCall N J A I X C M Unit := do
  recordLocationRead cfg
  recordSpam cfg
  let assetsConverted ← convertAssets cfg assets.val
  transferAssets cfg ctx (XcmSiblingDestinationGenerator.generate paraId)
    (XcmLocalBeneficiary20Generator.generate beneficiary) assetsConverted feeAssetItem

def transferAssetsToPara32 (ctx : Context) (paraId : U32) (beneficiary : H256)
    (assets : ByAddress) (feeAssetItem : U32) : XcmPrecompileCall N J A I X C M Unit := do
  recordLocationRead cfg
  recordSpam cfg
  let assetsConverted ← convertAssets cfg assets.val
  transferAssets cfg ctx (XcmSiblingDestinationGenerator.generate paraId)
    (XcmLocalBeneficiary32Generator.generate beneficiary) assetsConverted feeAssetItem

def transferAssetsToRelay (ctx : Context) (beneficiary : H256) (assets : ByAddress)
    (feeAssetItem : U32) : XcmPrecompileCall N J A I X C M Unit := do
  recordLocationRead cfg
  recordSpam cfg
  let assetsConverted ← convertAssets cfg assets.val
  transferAssets cfg ctx Location.parent (XcmLocalBeneficiary32Generator.generate beneficiary)
    assetsConverted feeAssetItem

def transferAssetsUsingTypeAndThenLocationNoRemoteReserve (ctx : Context) (dest : Location N J)
    (assets : ByLocation N J) (assetsTransferType remoteFeesIdIndex feesTransferType : UInt8)
    (customXcmOnDest : BoundedVec UInt8 xcmSizeLimit) : XcmPrecompileCall N J A I X C M Unit := do
  recordSpam cfg
  transferAssetsUsingTypeAndThen cfg ctx dest assets.val remoteFeesIdIndex
    (parseTransferTypes assetsTransferType feesTransferType) customXcmOnDest

def transferAssetsUsingTypeAndThenLocationRemoteReserve (ctx : Context) (dest : Location N J)
    (assets : ByLocation N J) (remoteFeesIdIndex : UInt8)
    (customXcmOnDest : BoundedVec UInt8 xcmSizeLimit) (remoteReserve : Location N J) :
    XcmPrecompileCall N J A I X C M Unit := do
  recordSpam cfg
  transferAssetsUsingTypeAndThen cfg ctx dest assets.val remoteFeesIdIndex
    (pure (.remoteReserve remoteReserve, .remoteReserve remoteReserve)) customXcmOnDest

def transferAssetsUsingTypeAndThenAddressNoRemoteReserve (ctx : Context) (dest : Location N J)
    (assets : ByAddress) (assetsTransferType remoteFeesIdIndex feesTransferType : UInt8)
    (customXcmOnDest : BoundedVec UInt8 xcmSizeLimit) : XcmPrecompileCall N J A I X C M Unit := do
  recordLocationRead cfg
  let assetsConverted ← convertAssets cfg assets.val
  transferAssetsUsingTypeAndThen cfg ctx dest assetsConverted remoteFeesIdIndex
    (parseTransferTypes assetsTransferType feesTransferType) customXcmOnDest

def transferAssetsUsingTypeAndThenAddressRemoteReserve (ctx : Context) (dest : Location N J)
    (assets : ByAddress) (remoteFeesIdIndex : UInt8)
    (customXcmOnDest : BoundedVec UInt8 xcmSizeLimit) (remoteReserve : Location N J) :
    XcmPrecompileCall N J A I X C M Unit := do
  recordLocationRead cfg
  let assetsConverted ← convertAssets cfg assets.val
  transferAssetsUsingTypeAndThen cfg ctx dest assetsConverted remoteFeesIdIndex
    (pure (.remoteReserve remoteReserve, .remoteReserve remoteReserve)) customXcmOnDest

end Functions

section Runs

inductive Request (N J : Type) where
  | transferAssetsLocation (dest beneficiary : Location N J) (assets : ByLocation N J)
      (feeAssetItem : U32)
  | transferAssetsToPara20 (paraId : U32) (beneficiary : H160) (assets : ByAddress)
      (feeAssetItem : U32)
  | transferAssetsToPara32 (paraId : U32) (beneficiary : H256) (assets : ByAddress)
      (feeAssetItem : U32)
  | transferAssetsToRelay (beneficiary : H256) (assets : ByAddress) (feeAssetItem : U32)
  | locationNoRemoteReserve (dest : Location N J) (assets : ByLocation N J)
      (assetsTransferType remoteFeesIdIndex feesTransferType : UInt8)
      (customXcmOnDest : BoundedVec UInt8 xcmSizeLimit)
  | locationRemoteReserve (dest : Location N J) (assets : ByLocation N J)
      (remoteFeesIdIndex : UInt8) (customXcmOnDest : BoundedVec UInt8 xcmSizeLimit)
      (remoteReserve : Location N J)
  | addressNoRemoteReserve (dest : Location N J) (assets : ByAddress)
      (assetsTransferType remoteFeesIdIndex feesTransferType : UInt8)
      (customXcmOnDest : BoundedVec UInt8 xcmSizeLimit)
  | addressRemoteReserve (dest : Location N J) (assets : ByAddress)
      (remoteFeesIdIndex : UInt8) (customXcmOnDest : BoundedVec UInt8 xcmSizeLimit)
      (remoteReserve : Location N J)

variable {N J A I X C E M Origin Balance E' : Type} [LinearOrder (Location N J)] [DecidableEq A]
  [DecidableEq I] (cfg : Config N J A I X C E M)

def Request.run (ctx : Context) : Request N J → XcmPrecompileCall N J A I X C M Unit
  | .transferAssetsLocation dest beneficiary assets feeAssetItem =>
    PalletXcm.transferAssetsLocation cfg ctx dest beneficiary assets feeAssetItem
  | .transferAssetsToPara20 paraId beneficiary assets feeAssetItem =>
    PalletXcm.transferAssetsToPara20 cfg ctx paraId beneficiary assets feeAssetItem
  | .transferAssetsToPara32 paraId beneficiary assets feeAssetItem =>
    PalletXcm.transferAssetsToPara32 cfg ctx paraId beneficiary assets feeAssetItem
  | .transferAssetsToRelay beneficiary assets feeAssetItem =>
    PalletXcm.transferAssetsToRelay cfg ctx beneficiary assets feeAssetItem
  | .locationNoRemoteReserve dest assets assetsTransferType remoteFeesIdIndex feesTransferType
      customXcmOnDest =>
    transferAssetsUsingTypeAndThenLocationNoRemoteReserve cfg ctx dest assets assetsTransferType
      remoteFeesIdIndex feesTransferType customXcmOnDest
  | .locationRemoteReserve dest assets remoteFeesIdIndex customXcmOnDest remoteReserve =>
    transferAssetsUsingTypeAndThenLocationRemoteReserve cfg ctx dest assets remoteFeesIdIndex
      customXcmOnDest remoteReserve
  | .addressNoRemoteReserve dest assets assetsTransferType remoteFeesIdIndex feesTransferType
      customXcmOnDest =>
    transferAssetsUsingTypeAndThenAddressNoRemoteReserve cfg ctx dest assets assetsTransferType
      remoteFeesIdIndex feesTransferType customXcmOnDest
  | .addressRemoteReserve dest assets remoteFeesIdIndex customXcmOnDest remoteReserve =>
    transferAssetsUsingTypeAndThenAddressRemoteReserve cfg ctx dest assets remoteFeesIdIndex
      customXcmOnDest remoteReserve

inductive Op (N J A I X M Origin Balance : Type) where
  | request (ctx : Context) (gas : M) (request : Request N J)
  /-- A call of the foreign-asset-creator pallet, or of the rest of the runtime. -/
  | runtime (op : ForeignAssetCreator.Op Origin (Location N J) I A Balance X)

inductive Answer (E' : Type) where
  | request (outcome : Outcome PrecompileFailure Unit)
  | runtime (outcome : Outcome (ForeignAssetCreator.DispatchError E') Unit)

variable (P : ForeignAssetCreator.Config Origin (Location N J) I A Balance X E')

/-- The precompile in a chain with these foreign assets at genesis. A call that fails is rolled
back. -/
def machine (assets : List (ForeignAssetCreator.GenesisAsset (Location N J) I A Balance)) :
    Machine (State N J A I X C) (Op N J A I X M Origin Balance) (Answer E') where
  genesis s := (ForeignAssetCreator.machine P assets).genesis s.storage ∧ s.sent = []
  exec s
    | .request ctx gas r =>
      let p := (r.run cfg ctx).transactional (s, gas)
      (.request p.1, p.2.1)
    | .runtime op =>
      let p := (ForeignAssetCreator.machine P assets).exec s.storage op
      (.runtime p.1, { s with storage := p.2 })

end Runs

end PalletXcm

end Moonkit
