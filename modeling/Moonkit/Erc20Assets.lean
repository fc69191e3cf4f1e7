import Moonkit.Base.Machine
import Moonkit.Eip2612

/-!
# The assets ERC20 precompiles

`precompiles/assets-erc20/src/lib.rs` and `eip2612.rs`. The addresses of a precompile set stand for
the assets of `pallet_assets`, each an ERC20 token. The set keeps nonces by contract and owner;
balances and approvals are the pallet's.
-/

namespace Moonkit

namespace Erc20Assets

open Precompile TypedData

/-- `pallet_assets` on its storage `L`: the calls the precompile dispatches and the state it reads.
An approval is added to the one that is there, and a cancellation leaves none. -/
structure PalletAssets (AssetId A L E : Type) (max : ℕ) where
  maybeTotalSupply : L → AssetId → Option (Uint max)
  name : L → AssetId → List UInt8
  allowance : L → AssetId → A → A → Uint max
  approveTransfer : A → AssetId → A → Uint max → L → Except E L
  cancelApproval : A → AssetId → A → L → Except E L
  transfer : A → AssetId → A → Uint max → L → Except E L
  transferApproved : A → AssetId → A → A → Uint max → L → Except E L
  approveTransfer_self : ∀ {owner id delegate n l l'},
    approveTransfer owner id delegate n l = .ok l' →
    allowance l' id owner delegate = (allowance l id owner delegate).saturatingAdd n
  approveTransfer_other : ∀ {owner id delegate n l l'},
    approveTransfer owner id delegate n l = .ok l' →
    ∀ id' o d, (id', o, d) ≠ (id, owner, delegate) → allowance l' id' o d = allowance l id' o d
  cancelApproval_self : ∀ {owner id delegate l l'}, cancelApproval owner id delegate l = .ok l' →
    allowance l' id owner delegate = 0
  cancelApproval_other : ∀ {owner id delegate l l'}, cancelApproval owner id delegate l = .ok l' →
    ∀ id' o d, (id', o, d) ≠ (id, owner, delegate) → allowance l' id' o d = allowance l id' o d

structure Config (D AssetId A L E M : Type) (max : ℕ) extends Runtime D A M where
  pallet : PalletAssets AssetId A L E max
  accountToAssetId : A → Option (List UInt8 × AssetId)
  toString : AssetId → String
  debug : E → String

structure State (D L : Type) where
  nonces : H160 → H160 → U256
  assets : L
  now : U128
  logs : List (Log D)

/-- System account size in bytes. -/
def systemAccountSize : U64 := .lit 148

section Set

variable {D AssetId A L E M : Type} {max : ℕ} (cfg : Config D AssetId A L E M max)

inductive DiscriminantResult (AssetId : Type) where
  | some (assetId : AssetId) (extraCost : U64)
  | none (extraCost : U64)
  | outOfGas

/-- The asset at an address of the set. -/
def discriminant (s : State D L) (address : H160) (gas : U64) : DiscriminantResult AssetId :=
  let extraCost := cfg.metering.dbReadGasCost
  if gas < extraCost then .outOfGas
  else match cfg.accountToAssetId (cfg.intoAccountId address) with
    | Option.none => .none extraCost
    | Option.some (_, assetId) =>
      if (cfg.pallet.maybeTotalSupply s.assets assetId).isSome then .some assetId extraCost
      else .none extraCost

/-- `handle.context()` and `handle.code_address()`. -/
structure Handle where
  context : Context
  codeAddress : H160

def selectorLogTransfer : D :=
  cfg.crypto.keccak256.hash (ofString "Transfer(address,address,uint256)")

def selectorLogApproval : D :=
  cfg.crypto.keccak256.hash (ofString "Approval(address,address,uint256)")

def record (log : Log D) : Call (State D L × M) PrecompileFailure Unit := do
  meter cfg.metering.log
  write fun s => { s with logs := s.logs ++ [log] }

/-- A call of the pallet, dispatched. -/
def dispatch (x : L → Except E L) (storageGrowth : U64) :
    Call (State D L × M) PrecompileFailure Unit :=
  tryDispatch cfg.metering cfg.debug (fun s => (x s.assets).map fun l => { s with assets := l })
    storageGrowth

def approveInner (assetId : AssetId) (owner spender : H160) (value : U256) :
    Call (State D L × M) PrecompileFailure Unit := do
  let owner := cfg.intoAccountId owner
  let spender := cfg.intoAccountId spender
  -- Amount saturate if too high.
  let amount := value.saturatingInto max
  meter (cfg.metering.recordDbRead 136)
  let s ← storage
  -- If previous approval exists, we need to clean it
  (if cfg.pallet.allowance s.assets assetId owner spender ≠ 0
    then dispatch cfg (cfg.pallet.cancelApproval owner assetId spender) 0 else pure ())
  dispatch cfg (cfg.pallet.approveTransfer owner assetId spender amount) 0

def approve (assetId : AssetId) (handle : Handle) (spender : H160) (value : U256) :
    Call (State D L × M) PrecompileFailure Bool := do
  meter (cfg.metering.recordLogCostsManual 3 32)
  approveInner cfg assetId handle.context.caller spender value
  record cfg (log3 handle.context.address (selectorLogApproval cfg) handle.context.caller spender
    value)
  pure true

def valueTooLarge : String := "value: Value is too large for balance type"

def transfer (assetId : AssetId) (handle : Handle) (to_ : H160) (value : U256) :
    Call (State D L × M) PrecompileFailure Bool := do
  meter (cfg.metering.recordLogCostsManual 3 32)
  let amount ← Call.okOr (value.tryInto max) (revert valueTooLarge)
  dispatch cfg (cfg.pallet.transfer (cfg.intoAccountId handle.context.caller) assetId
    (cfg.intoAccountId to_) amount) systemAccountSize
  record cfg (log3 handle.context.address (selectorLogTransfer cfg) handle.context.caller to_ value)
  pure true

def transferFrom [DecidableEq A] (assetId : AssetId) (handle : Handle) (from_ to_ : H160)
    (value : U256) : Call (State D L × M) PrecompileFailure Bool := do
  meter (cfg.metering.recordLogCostsManual 3 32)
  let amount ← Call.okOr (value.tryInto max) (revert valueTooLarge)
  let caller := cfg.intoAccountId handle.context.caller
  let owner := cfg.intoAccountId from_
  -- If caller is "from", it can spend as much as it wants from its own balance.
  (if caller ≠ owner
    then dispatch cfg (cfg.pallet.transferApproved caller assetId owner (cfg.intoAccountId to_)
      amount) systemAccountSize
    else dispatch cfg (cfg.pallet.transfer owner assetId (cfg.intoAccountId to_) amount)
      systemAccountSize)
  record cfg (log3 handle.context.address (selectorLogTransfer cfg) from_ to_ value)
  pure true

/-- The name in the domain separator: that of the asset, or one with its id. -/
def permitName (assets : L) (assetId : AssetId) : List UInt8 :=
  let assetName := cfg.pallet.name assets assetId
  if assetName.isEmpty then
    "Unnamed XC20 #".toUTF8.toList ++ (cfg.toString assetId).toUTF8.toList
  else assetName

def generatePermit (assets : L) (assetId : AssetId) (p : Eip2612.Permit) : D :=
  Eip2612.generatePermit cfg.crypto cfg.chainId (permitName cfg assets assetId) p

def permit (assetId : AssetId) (handle : Handle) (owner spender : H160) (value deadline : U256)
    (sig : Signature) : Call (State D L × M) PrecompileFailure Unit := do
  meter (cfg.metering.recordDbRead 104)
  let address := handle.codeAddress
  let s ← storage
  Call.ensure (seconds s.now ≤ deadline) (revert "Permit expired")
  let nonce := s.nonces address owner
  ensureSigned cfg.crypto owner sig
    (generatePermit cfg s.assets assetId ⟨address, owner, spender, value, nonce, deadline⟩)
  let next ← Call.expect (nonce.checkedAdd U256.one) "arithmetic operation overflow"
  write fun s => { s with
    nonces := Function.update s.nonces address (Function.update (s.nonces address) owner next) }
  approveInner cfg assetId owner spender value
  record cfg (log3 address (selectorLogApproval cfg) owner spender value)

/-- The calls that may write. -/
inductive Request where
  | approve (spender : H160) (value : U256)
  | transfer (to_ : H160) (value : U256)
  | transferFrom (from_ to_ : H160) (value : U256)
  | permit (owner spender : H160) (value deadline : U256) (sig : Signature)
deriving DecidableEq

def run [DecidableEq A] (assetId : AssetId) (handle : Handle) :
    Request → Call (State D L × M) PrecompileFailure Unit
  | .approve spender value => do
    let _ ← approve cfg assetId handle spender value
    pure ()
  | .transfer to_ value => do
    let _ ← transfer cfg assetId handle to_ value
    pure ()
  | .transferFrom from_ to_ value => do
    let _ ← transferFrom cfg assetId handle from_ to_ value
    pure ()
  | .permit owner spender value deadline sig =>
    permit cfg assetId handle owner spender value deadline sig

/-- A call to an address, with a frame of its own. It has no answer where the address is none of
the set's, and the storage is as before where it fails. -/
def call [DecidableEq A] (handle : Handle) (gas : M) (r : Request) (s : State D L) :
    Option (Outcome PrecompileFailure Unit) × State D L :=
  match discriminant cfg s handle.codeAddress (cfg.metering.remainingGas gas) with
  | .outOfGas => (some (.err (.error .outOfGas)), s)
  | .none _ => (none, s)
  | .some assetId _ =>
    let x := (run cfg assetId handle r).transactional (s, gas)
    (some x.1, x.2.1)

/-- A call, a new block, or a change of the assets from elsewhere in the runtime. -/
inductive Op (L M : Type) where
  | call (handle : Handle) (gas : M) (r : Request)
  | setTime (now : U128)
  | elsewhere (assets : L)

def machine [DecidableEq A] :
    Machine (State D L) (Op L M) (Option (Outcome PrecompileFailure Unit)) where
  genesis s := ∀ contract owner, s.nonces contract owner = 0
  exec s
    | .call handle gas r => call cfg handle gas r s
    | .setTime now => (none, { s with now := now })
    | .elsewhere assets => (none, { s with assets := assets })

end Set

end Erc20Assets

end Moonkit
