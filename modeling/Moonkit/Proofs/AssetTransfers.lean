import Moonkit.PalletXcmPrecompile
import Moonkit.PrecompilesMock
import Moonkit.Proofs.ForeignAssets

/-!
# Asset transfers

A call of the pallet-xcm precompile that answers makes one call of `pallet_xcm`. It carries what was
asked for, each asset at the location that the calls of the foreign-asset-creator pallet had given
it by then. The assets are put in the order of their locations first, so an index of the caller
names an asset of the caller's list only as far as the list was in this order.
-/

namespace Moonkit

namespace ForeignAssetCreator

variable {Origin ForeignAsset AssetId AccountId Balance X E : Type} [DecidableEq ForeignAsset]
  [DecidableEq AssetId] {C : Config Origin ForeignAsset AssetId AccountId Balance X E}
  {s s' : State ForeignAsset AssetId X}
  {assets : List (GenesisAsset ForeignAsset AssetId AccountId Balance)}

/-- The foreign asset of an asset id, after an operation that succeeded. -/
def Op.relinks (registered : AssetId → Option ForeignAsset) :
    Op Origin ForeignAsset AssetId AccountId Balance X → AssetId → Option ForeignAsset
  | .createForeignAsset _ foreignAsset assetId _ _ _ =>
    Function.update registered assetId (some foreignAsset)
  | .changeExistingAssetType _ assetId newForeignAsset =>
    Function.update registered assetId (some newForeignAsset)
  | .removeExistingAssetType _ assetId | .destroyForeignAsset _ assetId =>
    Function.update registered assetId none
  | .elsewhere _ => registered

/-- The foreign asset that each asset id was given last, and that was not taken from it since. -/
def registered (assets : List (GenesisAsset ForeignAsset AssetId AccountId Balance)) :
    List (RunEvent Origin ForeignAsset AssetId AccountId Balance X E) →
      AssetId → Option ForeignAsset
  | [] => fun a => (assets.find? fun x => x.assetId = a).map GenesisAsset.foreignAsset
  | e :: h =>
    match e.answer with
    | .ok () => e.op.relinks (registered assets h)
    | _ => registered assets h

end ForeignAssetCreator

namespace PalletXcm

open Precompile Xcm

variable {N J A I X C E M Origin Balance E' : Type} [LinearOrder (Location N J)] [DecidableEq A]
  [DecidableEq I] {cfg : Config N J A I X C E M} {s s' : State N J A I X C} {m m' : M}

section Requests

variable (cfg) in
/-- The assets by their locations, where each asset id has the location that `registered` gives. -/
def locateAll (registered : I → Option (Location N J)) :
    List (H160 × U128) → Option (List (Location N J × U128)) :=
  List.mapM fun asset =>
    (convert cfg.accounts cfg.matchers registered (cfg.intoAccountId asset.1)).map
      fun location => (location, asset.2)

variable (cfg) in
/-- The assets that a request asks to send, by their locations. -/
def Request.given (registered : I → Option (Location N J)) :
    Request N J → Option (List (Location N J × U128))
  | .transferAssetsLocation _ _ assets _ | .locationNoRemoteReserve _ assets _ _ _ _
  | .locationRemoteReserve _ assets _ _ _ => some assets.val
  | .transferAssetsToPara20 _ _ assets _ | .transferAssetsToPara32 _ _ assets _
  | .transferAssetsToRelay _ assets _ | .addressNoRemoteReserve _ assets _ _ _ _
  | .addressRemoteReserve _ assets _ _ _ => locateAll cfg registered assets.val

def Request.dest : Request N J → Location N J
  | .transferAssetsLocation dest _ _ _ | .locationNoRemoteReserve dest _ _ _ _ _
  | .locationRemoteReserve dest _ _ _ _ | .addressNoRemoteReserve dest _ _ _ _ _
  | .addressRemoteReserve dest _ _ _ _ => dest
  | .transferAssetsToPara20 paraId _ _ _ | .transferAssetsToPara32 paraId _ _ _ =>
    XcmSiblingDestinationGenerator.generate paraId
  | .transferAssetsToRelay _ _ _ => Location.parent

/-- The index of the asset that pays for fees. -/
def Request.feeIndex : Request N J → ℕ
  | .transferAssetsLocation _ _ _ i | .transferAssetsToPara20 _ _ _ i
  | .transferAssetsToPara32 _ _ _ i | .transferAssetsToRelay _ _ i => i.val
  | .locationNoRemoteReserve _ _ _ i _ _ | .locationRemoteReserve _ _ i _ _
  | .addressNoRemoteReserve _ _ _ i _ _ | .addressRemoteReserve _ _ i _ _ => i.toNat

end Requests

section Calls

def XcmCall.dest : XcmCall N J C → Location N J
  | .transferAssets dest _ _ _ _ | .transferAssetsUsingTypeAndThen dest _ _ _ _ _ _ => dest

def XcmCall.assets : XcmCall N J C → List (Asset N J)
  | .transferAssets _ _ assets _ _ | .transferAssetsUsingTypeAndThen _ assets _ _ _ _ _ => assets

/-- The asset that pays for fees, where the call names one. -/
def XcmCall.feeAsset : XcmCall N J C → Option (Location N J)
  | .transferAssets _ _ assets feeAssetItem _ => (assets.map Asset.id)[feeAssetItem.val]?
  | .transferAssetsUsingTypeAndThen _ _ _ remoteFeesId _ _ _ => some remoteFeesId

variable (cfg) in
/-- How the assets go on from `dest`: to the beneficiary, or by the types and the message. -/
def Request.Continues : Request N J → XcmCall N J C → Prop
  | .transferAssetsLocation _ beneficiary _ i, .transferAssets _ b _ j w =>
    b = beneficiary ∧ j = i ∧ w = .unlimited
  | .transferAssetsToPara20 _ beneficiary _ i, .transferAssets _ b _ j w =>
    b = XcmLocalBeneficiary20Generator.generate beneficiary ∧ j = i ∧ w = .unlimited
  | .transferAssetsToPara32 _ beneficiary _ i, .transferAssets _ b _ j w
  | .transferAssetsToRelay beneficiary _ i, .transferAssets _ b _ j w =>
    b = XcmLocalBeneficiary32Generator.generate beneficiary ∧ j = i ∧ w = .unlimited
  | .locationNoRemoteReserve _ _ t _ t' bytes, .transferAssetsUsingTypeAndThen _ _ a _ f xcm w
  | .addressNoRemoteReserve _ _ t _ t' bytes, .transferAssetsUsingTypeAndThen _ _ a _ f xcm w =>
    parseTransferType t = .ok a ∧ parseTransferType t' = .ok f ∧
      cfg.decodeXcm bytes.val = some xcm ∧ w = .unlimited
  | .locationRemoteReserve _ _ _ bytes reserve, .transferAssetsUsingTypeAndThen _ _ a _ f xcm w
  | .addressRemoteReserve _ _ _ bytes reserve, .transferAssetsUsingTypeAndThen _ _ a _ f xcm w =>
    a = .remoteReserve reserve ∧ f = .remoteReserve reserve ∧
      cfg.decodeXcm bytes.val = some xcm ∧ w = .unlimited
  | _, _ => False

variable (cfg) in
/-- The call carries what the request asks for: of each asset given as much as was given in total,
the assets in the order of their locations, and fees paid in the one that the index names there. -/
structure Carries (given : List (Location N J × U128)) (r : Request N J) (call : XcmCall N J C) :
    Prop where
  dest : call.dest = r.dest
  assets : Basket.Merges (2 ^ 128 - 1) (given.map fun a => (a.1, a.2.val))
    (call.assets.map Asset.entry)
  fee : call.feeAsset = (call.assets.map Asset.id)[r.feeIndex]?
  continues : r.Continues cfg call

end Calls

section Functions

/-- `who` makes one call of `pallet_xcm`, which leaves the foreign assets as they are. -/
def Sends (who : A) (call : XcmCall N J C) (s s' : State N J A I X C) : Prop :=
  s'.sent = s.sent ++ [(who, call)] ∧ ∃ rest, s'.storage = { s.storage with rest := rest }

variable (cfg) in
omit [DecidableEq A] [DecidableEq I] in
theorem assetsFrom_merges (given : List (Location N J × U128)) :
    Basket.Merges (2 ^ 128 - 1) (given.map fun a => (a.1, a.2.val))
      ((cfg.assetsFrom (given.map fun a => ⟨a.1, a.2⟩)).map Asset.entry) := by
  have h := cfg.assetsFrom_merges (given.map fun a => ⟨a.1, a.2⟩)
  rw [List.map_map] at h
  exact h

variable {ctx : Context} {p' : State N J A I X C × M} {u : Unit}
  {given : List (Location N J × U128)}

end Functions

section Runs

abbrev Ev (N J A I X C M Origin Balance E' : Type) :=
  Machine.Event (State N J A I X C) (Op N J A I X M Origin Balance) (Answer E')

variable (P : ForeignAssetCreator.Config Origin (Location N J) I A Balance X E')
  (assets : List (ForeignAssetCreator.GenesisAsset (Location N J) I A Balance))

variable {P assets} {h : List (Ev N J A I X C M Origin Balance E')}

omit [DecidableEq A] [DecidableEq I] in
theorem Carries.sum_le {given : List (Location N J × U128)} {r : Request N J}
    {call : XcmCall N J C} (h : Carries cfg given r call) :
    (call.assets.map fun a => a.fungible.val).sum ≤ (given.map fun a => a.2.val).sum := by
  have hle := h.assets.sum_le
  rw [List.map_map, List.map_map] at hle
  exact hle

end Runs

section Example

/-- A junction as the order of junctions sees it: the variant, and its fields. -/
def exampleJunctionKey : Junction Empty Empty → List ℕ
  | .parachain id => [0, id.val]
  | .accountId32 _ id => 1 :: id.toList.map UInt8.toNat
  | .accountKey20 _ key => 3 :: key.toList.map UInt8.toNat
  | .palletInstance index => [4, index.toNat]
  | .other j => j.elim

def exampleKey (l : Location Empty Empty) : List (List ℕ) :=
  [l.parents.toNat, l.interior.val.length] :: l.interior.val.map exampleJunctionKey

theorem exampleJunctionKey_injective : Function.Injective exampleJunctionKey := by
  have hbytes {n : ℕ} {a b : Vector UInt8 n}
      (h : a.toList.map UInt8.toNat = b.toList.map UInt8.toNat) : a = b :=
    Vector.toList_inj.1 (List.map_injective_iff.2 (fun _ _ => UInt8.toNat_inj.1) h)
  rintro (a | ⟨n, a⟩ | ⟨n, a⟩ | a | j) (b | ⟨n', b⟩ | ⟨n', b⟩ | b | j') h <;>
    first
    | exact j.elim
    | exact j'.elim
    | simp [exampleJunctionKey] at h
  · rw [Uint.ext_val h]
  · rw [hbytes h, Subsingleton.elim n n']
  · rw [hbytes h, Subsingleton.elim n n']
  · rw [UInt8.toNat_inj.1 h]

theorem exampleKey_injective : Function.Injective exampleKey := by
  rintro ⟨p, l, hl⟩ ⟨p', l', hl'⟩ h
  simp only [exampleKey, List.cons.injEq, and_true] at h
  obtain ⟨⟨hp, -⟩, hjunctions⟩ := h
  obtain rfl := UInt8.toNat_inj.1 hp
  obtain rfl := List.map_injective_iff.2 exampleJunctionKey_injective hjunctions
  rfl

/-- The order of locations: by parents, then by the number of junctions, then by the junctions. -/
instance : LinearOrder (Location Empty Empty) :=
  LinearOrder.lift' exampleKey exampleKey_injective

/-- The address of the foreign asset with this id. -/
def exampleAddress (id : UInt8) : H160 := (Vector.replicate 19 255).push id

def exampleAsset (e : Location Empty Empty × ℕ) : Asset Empty Empty :=
  ⟨e.1, ⟨min e.2 (2 ^ 128 - 1), Nat.min_le_right _ _⟩⟩

def exampleAssetsFrom (l : List (Asset Empty Empty)) : List (Asset Empty Empty) :=
  (Basket.gather (2 ^ 128 - 1) (l.map Asset.entry)).map exampleAsset

theorem exampleAssetsFrom_merges (l : List (Asset Empty Empty)) :
    Basket.Merges (2 ^ 128 - 1) (l.map Asset.entry) ((exampleAssetsFrom l).map Asset.entry) := by
  have hgather : Basket.Merges (2 ^ 128 - 1) _ _ := Basket.merges_gather (l.map Asset.entry)
  have hfits : ∀ e ∈ Basket.gather (2 ^ 128 - 1) (l.map Asset.entry),
      (exampleAsset e).entry = e := fun e he => by
    have hle : e.2 ≤ 2 ^ 128 - 1 := (hgather.amount_of_mem he).trans_le (min_le_right _ _)
    exact Prod.ext rfl (min_eq_left hle)
  have hsame : (exampleAssetsFrom l).map Asset.entry =
      Basket.gather (2 ^ 128 - 1) (l.map Asset.entry) := by
    rw [exampleAssetsFrom, List.map_map]
    exact (List.map_congr_left hfits).trans (List.map_id _)
  rw [hsame]
  exact hgather

def exampleAccounts : Accounts H160 UInt8 where
  ofH160 := id
  toH160 := id
  accountToAssetId account :=
    if account.toList.take 19 = List.replicate 19 255 then
      account.toList.getLast?.map fun assetId => ([255], assetId)
    else none

/-- As in `mock.rs`: the balances pallet, here the third, is at the address 2050, and the addresses
that begin with ones are those of foreign assets. -/
def exampleConfig : Config Empty Empty H160 UInt8 Unit Unit Unit Unit where
  metering := Mock.metering
  intoAccountId := id
  accounts := exampleAccounts
  matchers := [.singleAddress (.lit 2050) 3, .foreignAsset]
  locationMaxEncodedLen := 0
  assetsFrom := exampleAssetsFrom
  assetsFrom_merges := exampleAssetsFrom_merges
  decodeXcm _ := some ()
  dispatch _ _ := .ok
  debug _ := ""

def exampleRegistry : ForeignAssetCreator.Config Unit (Location Empty Empty) UInt8 H160 Unit Unit
    Unit where
  foreignAssetCreatorOrigin _ := true
  foreignAssetModifierOrigin _ := true
  foreignAssetDestroyerOrigin _ := true
  fungiblesCreate _ _ _ _ := pure ()
  fungiblesStartDestroy _ _ := pure ()
  onForeignAssetCreated _ _ _ := id
  onForeignAssetDestroyed _ _ := id
  debug _ := ""

def exampleParachain (id : U32) : Location Empty Empty := Location.new 1 [.parachain id]

/-- Send `n` of the foreign asset 5, and `k` of the native asset, to an account of the parachain 7,
where the fees are paid in the asset at this index. -/
def exampleTransfer (n k : U128) (fee : U32) : Op Empty Empty H160 UInt8 Unit Unit Unit Unit :=
  .request (Mock.context Mock.alith Mock.precompile) () (.transferAssetsToPara20 (.lit 7) Mock.bob
    ⟨[(exampleAddress 5, n), (lowU64Be (.lit 2050), k)], Nat.le_refl 2⟩ fee)

/-- The foreign asset 5 is sent before and after it is moved to another location, and no longer
after it is removed. -/
def exampleOps : List (Op Empty Empty H160 UInt8 Unit Unit Unit Unit) :=
  [.runtime (.createForeignAsset () (exampleParachain (.lit 2000)) 5 Mock.charlie false ()),
    exampleTransfer (.lit 100) (.lit 30) (.lit 1),
    .runtime (.changeExistingAssetType () 5 (exampleParachain (.lit 3000))),
    exampleTransfer (.lit 20) (.lit 1) (.lit 0),
    .runtime (.removeExistingAssetType () 5),
    exampleTransfer (.lit 7) (.lit 7) (.lit 0)]

def exampleRun : List (Ev Empty Empty H160 UInt8 Unit Unit Unit Unit Unit Unit) ×
    State Empty Empty H160 UInt8 Unit Unit :=
  (machine exampleConfig exampleRegistry []).replay [] ⟨⟨∅, ∅, [], ()⟩, []⟩ exampleOps

theorem run_exampleRun : (machine exampleConfig exampleRegistry []).Run (fun _ _ _ => True)
    exampleRun.1 exampleRun.2 :=
  Machine.run_replay_all exampleOps (.start ⟨⟨(), rfl⟩, rfl⟩)

end Example

section Results

variable {P : ForeignAssetCreator.Config Origin (Location N J) I A Balance X E'}
  {assets : List (ForeignAssetCreator.GenesisAsset (Location N J) I A Balance)}
  {h : List (Ev N J A I X C M Origin Balance E')}

end Results

end PalletXcm

end Moonkit
