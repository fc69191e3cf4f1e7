import Moonkit.Base.Currency
import Moonkit.Base.Machine
import Moonkit.Eip2612

/-!
# The balances ERC20 precompile

`precompiles/balances-erc20/src/lib.rs` and `eip2612.rs`. One instance of the precompile shows one
instance of `pallet_balances` as an ERC20 token. Approvals and nonces are the precompile's own;
balances are the pallet's, and move by its `transfer_allow_death`.
-/

namespace Moonkit

namespace Erc20Balances

open Precompile TypedData

/-- What an instance is of: the metadata of the token, and the instance of `pallet_balances`. -/
structure Token (A L : Type) (max : ℕ) where
  name : List UInt8
  isNativeCurrency : Bool
  storageGrowth : U64
  currency : ExpendableCurrency A L max
  usableBalance : L → A → Uint max
  debug : TransferError → String

structure Config (D A L M : Type) (max : ℕ) extends Runtime D A M, Token A L max

structure State (D A L : Type) (max : ℕ) where
  approves : A → A → Option (Uint max)
  nonces : H160 → U256
  ledger : L
  now : U128
  logs : List (Log D)

variable {D A L M : Type} {max : ℕ} [DecidableEq A] (cfg : Config D A L M max)

section Approvals

/-- The approvals after an insertion. -/
def insertApproval {B : Type} (f : A → A → Option B) (owner spender : A) (value : B) :
    A → A → Option B :=
  Function.update f owner (Function.update (f owner) spender (some value))

variable {B : Type} {f : A → A → Option B} {o o' s s' : A} {v : B}

@[simp] theorem insertApproval_self : insertApproval f o s v o s = some v := by
  simp [insertApproval]

theorem insertApproval_of_ne (h : (o', s') ≠ (o, s)) : insertApproval f o s v o' s' = f o' s' := by
  unfold insertApproval
  by_cases ho : o' = o
  · subst ho
    rw [Function.update_self, Function.update_of_ne]
    rintro rfl
    exact h rfl
  · rw [Function.update_of_ne ho]

end Approvals

omit [DecidableEq A] in
def selector (signature : String) : D := cfg.crypto.keccak256.hash (ofString signature)

def selectorLogTransfer : D := selector cfg "Transfer(address,address,uint256)"

def selectorLogApproval : D := selector cfg "Approval(address,address,uint256)"

def selectorLogDeposit : D := selector cfg "Deposit(address,uint256)"

def selectorLogWithdrawal : D := selector cfg "Withdrawal(address,uint256)"

def record (log : Log D) : Call (State D A L max × M) PrecompileFailure Unit := do
  meter cfg.metering.log
  write fun s => { s with logs := s.logs ++ [log] }

/-- `pallet_balances::Call::transfer_allow_death` with the origin `source`, dispatched. -/
def dispatchTransfer (source dest : A) (value : Uint max) :
    Call (State D A L max × M) PrecompileFailure Unit :=
  tryDispatch cfg.metering cfg.debug
    (fun s => (cfg.currency.transferAllowDeath s.ledger source dest value).map
      fun l => { s with ledger := l }) cfg.storageGrowth

def valueTooLarge : String := "Value is too large for balance type"

def approve (ctx : Context) (spender : H160) (value : U256) :
    Call (State D A L max × M) PrecompileFailure Bool := do
  meter (cfg.metering.recordCost cfg.metering.dbWriteGasCost)
  meter (cfg.metering.recordLogCostsManual 3 32)
  write fun s => { s with
    approves := insertApproval s.approves (cfg.intoAccountId ctx.caller) (cfg.intoAccountId spender)
      (value.saturatingInto max) }
  record cfg (log3 ctx.address (selectorLogApproval cfg) ctx.caller spender value)
  pure true

def transfer (ctx : Context) (to_ : H160) (value : U256) :
    Call (State D A L max × M) PrecompileFailure Bool := do
  meter (cfg.metering.recordLogCostsManual 3 32)
  let amount ← Call.okOr (value.tryInto max) (revert ("value: " ++ valueTooLarge))
  dispatchTransfer cfg (cfg.intoAccountId ctx.caller) (cfg.intoAccountId to_) amount
  record cfg (log3 ctx.address (selectorLogTransfer cfg) ctx.caller to_ value)
  pure true

/-- Takes `value` off what `owner` allowed `spender`. -/
def spendAllowance (owner spender : A) (value : Uint max) :
    Call (State D A L max × M) PrecompileFailure Unit := do
  let s ← storage
  let allowed ← Call.okOr (s.approves owner spender) (revert "spender not allowed")
  let rest ← Call.okOr (allowed.checkedSub value) (revert "trying to spend more than allowed")
  write fun s => { s with approves := insertApproval s.approves owner spender rest }

def transferFrom (ctx : Context) (from_ to_ : H160) (value : U256) :
    Call (State D A L max × M) PrecompileFailure Bool := do
  meter (cfg.metering.recordDbRead 88)
  meter (cfg.metering.recordCost cfg.metering.dbWriteGasCost)
  meter (cfg.metering.recordLogCostsManual 3 32)
  let amount ← Call.okOr (value.tryInto max) (revert ("value: " ++ valueTooLarge))
  -- If caller is "from", it can spend as much as it wants.
  (if cfg.intoAccountId ctx.caller = cfg.intoAccountId from_ then pure ()
    else spendAllowance (cfg.intoAccountId from_) (cfg.intoAccountId ctx.caller) amount)
  dispatchTransfer cfg (cfg.intoAccountId from_) (cfg.intoAccountId to_) amount
  record cfg (log3 ctx.address (selectorLogTransfer cfg) from_ to_ value)
  pure true

def deposit (ctx : Context) : Call (State D A L max × M) PrecompileFailure Unit := do
  Call.ensure (cfg.isNativeCurrency = true) (revert "Unknown selector")
  let amount ← Call.okOr (ctx.apparentValue.tryInto max) (revert valueTooLarge)
  Call.ensure (amount.val ≠ 0) (revert "deposited amount must be non-zero")
  meter (cfg.metering.recordLogCostsManual 2 32)
  -- Send back funds received by the precompile.
  dispatchTransfer cfg (cfg.intoAccountId ctx.address) (cfg.intoAccountId ctx.caller) amount
  record cfg (log2 ctx.address (selectorLogDeposit cfg) ctx.caller ctx.apparentValue)

def withdraw (ctx : Context) (value : U256) :
    Call (State D A L max × M) PrecompileFailure Unit := do
  Call.ensure (cfg.isNativeCurrency = true) (revert "Unknown selector")
  meter (cfg.metering.recordLogCostsManual 2 32)
  let s ← storage
  Call.ensure (value.val ≤ (cfg.usableBalance s.ledger (cfg.intoAccountId ctx.caller)).val)
    (revert "Trying to withdraw more than owned")
  record cfg (log2 ctx.address (selectorLogWithdrawal cfg) ctx.caller value)

def generatePermit (p : Eip2612.Permit) : D :=
  Eip2612.generatePermit cfg.crypto cfg.chainId cfg.name p

def permit (ctx : Context) (owner spender : H160) (value deadline : U256) (sig : Signature) :
    Call (State D A L max × M) PrecompileFailure Unit := do
  meter (cfg.metering.recordDbRead 104)
  let s ← storage
  Call.ensure (seconds s.now ≤ deadline) (revert "Permit expired")
  let nonce := s.nonces owner
  ensureSigned cfg.crypto owner sig
    (generatePermit cfg ⟨ctx.address, owner, spender, value, nonce, deadline⟩)
  let next ← Call.expect (nonce.checkedAdd U256.one) "arithmetic operation overflow"
  write fun s => { s with nonces := Function.update s.nonces owner next }
  write fun s => { s with
    approves := insertApproval s.approves (cfg.intoAccountId owner) (cfg.intoAccountId spender)
      (value.saturatingInto max) }
  record cfg (log3 ctx.address (selectorLogApproval cfg) owner spender value)

/-- The calls that may write. -/
inductive Request where
  | approve (spender : H160) (value : U256)
  | transfer (to_ : H160) (value : U256)
  | transferFrom (from_ to_ : H160) (value : U256)
  | deposit
  | withdraw (value : U256)
  | permit (owner spender : H160) (value deadline : U256) (sig : Signature)
deriving DecidableEq

def run (ctx : Context) : Request → Call (State D A L max × M) PrecompileFailure Unit
  | .approve spender value => do
    let _ ← approve cfg ctx spender value
    pure ()
  | .transfer to_ value => do
    let _ ← transfer cfg ctx to_ value
    pure ()
  | .transferFrom from_ to_ value => do
    let _ ← transferFrom cfg ctx from_ to_ value
    pure ()
  | .deposit => deposit cfg ctx
  | .withdraw value => withdraw cfg ctx value
  | .permit owner spender value deadline sig => permit cfg ctx owner spender value deadline sig

/-- A call with a frame of its own; the storage is as before where it fails. -/
def call (ctx : Context) (gas : M) (r : Request) (s : State D A L max) :
    Outcome PrecompileFailure Unit × State D A L max :=
  let x := (run cfg ctx r).transactional (s, gas)
  (x.1, x.2.1)

section Machine

/-- A call, a new block, or a change of balances from elsewhere in the runtime. -/
inductive Op (L M : Type) where
  | call (ctx : Context) (gas : M) (r : Request)
  | setTime (now : U128)
  | elsewhere (ledger : L)

def exec (s : State D A L max) : Op L M → Outcome PrecompileFailure Unit × State D A L max
  | .call ctx gas r => call cfg ctx gas r s
  | .setTime now => (.ok (), { s with now := now })
  | .elsewhere ledger => (.ok (), { s with ledger := ledger })

def machine : Machine (State D A L max) (Op L M) (Outcome PrecompileFailure Unit) where
  genesis s := (∀ owner spender, s.approves owner spender = none) ∧ ∀ owner, s.nonces owner = 0
  exec := exec cfg

end Machine

section Instances

variable {I : Type} {L : I → Type} {max : I → ℕ} [DecidableEq I]

/-- An operation on the instance `i`, or a new block. -/
inductive SetOp (I : Type) (L : I → Type) (M : Type) where
  | on (i : I) (op : Op (L i) M)
  | setTime (now : U128)

/-- All instances of the precompile in one runtime. -/
def setMachine (rt : Runtime D A M) (tokens : (i : I) → Token A (L i) (max i)) :
    Machine ((i : I) → State D A (L i) (max i)) (SetOp I L M) (Outcome PrecompileFailure Unit) where
  genesis s := ∀ i, (machine ⟨rt, tokens i⟩).genesis (s i)
  exec s
    | .on i op =>
      ((exec ⟨rt, tokens i⟩ (s i) op).1, Function.update s i (exec ⟨rt, tokens i⟩ (s i) op).2)
    | .setTime now => (.ok (), fun i => { s i with now := now })

/-- The calls reach an instance at the addresses it is installed at: one instance at an address, and
no calls with the context of another contract. -/
def Reaches (installed : H160 → Option I) : SetOp I L M → Prop
  | .on i (.call ctx _ _) => installed ctx.address = some i
  | _ => True

end Instances

end Erc20Balances

end Moonkit
