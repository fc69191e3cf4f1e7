import Moonkit.Base.Machine
import Moonkit.Precompiles

/-!
# The call-permit precompile

`precompiles/call-permit/src/lib.rs`. Anyone may dispatch a call that `from` has signed a permit
for; the nonce of `from` goes up before the call is made, and the call may dispatch again. What the
EVM does around it is an `Activity`: the frames that were run, each with what it ran inside and how
it ended. A frame that fails leaves the storage as it found it.
-/

namespace Moonkit

namespace CallPermit

open Precompile TypedData

structure Config (D M : Type) where
  crypto : Crypto D
  chainId : U64
  metering : Metering M
  callCost : U256 → U64

def callDataLimit : ℕ := 2 ^ 16

/-- The arguments of `dispatch`. -/
structure Args where
  from_ : H160
  to_ : H160
  value : U256
  data : List UInt8
  bounded : data.length ≤ callDataLimit
  gasLimit : U64
  deadline : U256
  sig : Signature

/-- A dispatch that went through to its subcall: what was signed for it, and when. -/
structure Dispatched where
  address : H160
  call : SubCall
  nonce : U256
  deadline : U256
  sig : Signature
  now : U128

/-- `dispatched` is not stored: it is the dispatches that storage has seen, oldest first. -/
structure State where
  nonces : H160 → U256
  now : U128
  dispatched : List Dispatched

section Permit

variable {D M : Type} (cfg : Config D M)

def permitTypehash : D :=
  cfg.crypto.keccak256.hash (ofString
    ("CallPermit(address from,address to,uint256 value,bytes data,uint64 gaslimit"
      ++ ",uint256 nonce,uint256 deadline)"))

def computeDomainSeparator (address : H160) : D :=
  domainSeparator cfg.crypto cfg.chainId "Call Permit Precompile".toUTF8.toList address

def generatePermit (address from_ to_ : H160) (value : U256) (data : List UInt8) (gaslimit : U64)
    (nonce deadline : U256) : D :=
  permitDigest cfg.crypto (computeDomainSeparator cfg address)
    [.digest (permitTypehash cfg), .address from_, .address to_, .uint value,
      -- bytes are encoded as the keccak_256 of the content
      .digest (cfg.crypto.keccak256.hash (ofBytes data)), .uint (U256.ofU64 gaslimit), .uint nonce,
      .uint deadline]

end Permit

section Dispatch

variable {D M : Type} (cfg : Config D M)

/-- `handle.call`: what the EVM does with the storage. The gas it takes is not looked at again. -/
def handleCall {α : Type} (f : State → α × State) : Call (State × M) PrecompileFailure α :=
  fun p => (.ok (f p.1).1, (f p.1).2, p.2)

/-- 3000 gas for the recovery of the signer, and the write of the nonce. -/
def dispatchInherentCost : Option U64 := (Uint.lit 3000).checkedAdd cfg.metering.dbWriteGasCost

def subCall (from_ to_ : H160) (value : U256) (data : List UInt8) (gasLimit : U64) : SubCall where
  codeAddress := to_
  transfer := if value.val = 0 then none else some ⟨from_, to_, value⟩
  input := data
  targetGas := some gasLimit
  isStatic := false
  context := { caller := from_, address := to_, apparentValue := value }

def dispatch (address : H160) (call : SubCall → State → (ExitReason × List UInt8) × State)
    (a : Args) : Call (State × M) PrecompileFailure (List UInt8) := do
  meter (cfg.metering.recordDbRead 8)
  meter (cfg.metering.recordDbRead 104)
  let cost ← Call.expect (dispatchInherentCost cfg) "attempt to add with overflow"
  meter (cfg.metering.recordCost cost)
  let totalCost ← Call.okOr (a.gasLimit.checkedAdd (cfg.callCost a.value))
    (revert "Call require too much gas (uint64 overflow)")
  let (s, m) ← Call.get
  Call.ensure (totalCost ≤ cfg.metering.remainingGas m)
    (revert "Gaslimit is too low to dispatch provided call")
  Call.ensure (seconds s.now ≤ a.deadline) (revert "Permit expired")
  let nonce := s.nonces a.from_
  let permit := generatePermit cfg address a.from_ a.to_ a.value a.data a.gasLimit nonce a.deadline
  ensureSigned cfg.crypto a.from_ a.sig permit
  let next ← Call.expect (nonce.checkedAdd U256.one) "arithmetic operation overflow"
  write fun s => { s with nonces := Function.update s.nonces a.from_ next }
  let (reason, output) ← handleCall (call (subCall a.from_ a.to_ a.value a.data a.gasLimit))
  match reason.failure output with
  | some e => Call.err e
  | none => pure output

end Dispatch

section Evm

variable {D M : Type} (cfg : Config D M)

/-- What frames were run, one after the other: a dispatch at `address` whose subcall ran `inner` and
ended with `exit`, or any other frame. A frame of the EVM may do anything with other storage. -/
inductive Activity (M : Type) where
  | done
  | dispatch (address : H160) (gas : M) (args : Args) (inner : Activity M) (exit : ExitReason)
      (output : List UInt8) (next : Activity M)
  | frame (inner : Activity M) (exit : ExitReason) (next : Activity M)

/-- The storage after a frame that ended with `exit`. -/
def ended (exit : ExitReason) (before after : State) : State :=
  if exit = .succeed then after else before

def run : Activity M → State → State
  | .done, s => s
  | .dispatch address gas a inner exit output next, s =>
    let call (sub : SubCall) (s₁ : State) : (ExitReason × List UInt8) × State :=
      let entry := ⟨address, sub, s.nonces sub.context.caller, a.deadline, a.sig, s.now⟩
      ((exit, output),
        ended exit s₁ (run inner { s₁ with dispatched := s₁.dispatched ++ [entry] }))
    run next ((dispatch cfg address call a).transactional (s, gas)).2.1
  | .frame inner exit next, s => run next (ended exit s (run inner s))

inductive Op (M : Type) where
  | transact (activity : Activity M)
  | setTime (now : U128)

def machine : Machine State (Op M) Unit where
  genesis s := s.nonces = (fun _ => 0) ∧ s.dispatched = []
  exec s
    | .transact activity => ((), run cfg activity s)
    | .setTime now => ((), { s with now := now })

end Evm

end CallPermit

end Moonkit
