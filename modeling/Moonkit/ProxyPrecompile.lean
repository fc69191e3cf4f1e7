import Moonkit.Base.Grants
import Moonkit.Base.Machine
import Moonkit.Base.Window
import Moonkit.Precompiles

/-!
# The proxy precompile

`precompiles/proxy/src/lib.rs`. An account registers delegates in `pallet_proxy`, and a delegate may
make EVM calls in its name. The pallet is a parameter with the documented effect of its calls; the
rest of the storage of the chain is a world that other frames change as they like.
-/

namespace Moonkit

namespace Proxy

open Precompile

section Pallet

structure ProxyDefinition (A T : Type) where
  delegate : A
  proxyType : T
  delay : U32
deriving DecidableEq

inductive ProxyCall (A T : Type) where
  | addProxy (delegate : A) (proxyType : T) (delay : U32)
  | removeProxy (delegate : A) (proxyType : T) (delay : U32)
  | removeProxies

/-- `pallet_proxy`: its storage `P`, and its calls, which also move deposits in the world. -/
structure ProxyPallet (A T P W E : Type) where
  proxies : P → A → List (ProxyDefinition A T)
  findProxy : P → A → A → Option T → Except E (ProxyDefinition A T)
  dispatch : P × W → A → ProxyCall A T → Except E (P × W)
  findProxy_ok : ∀ {p real delegate force d}, findProxy p real delegate force = .ok d →
    d ∈ proxies p real ∧ d.delegate = delegate ∧ ∀ t ∈ force, d.proxyType = t
  findProxy_error : ∀ {p real delegate force e}, findProxy p real delegate force = .error e →
    ∀ d ∈ proxies p real, d.delegate = delegate → ∃ t ∈ force, d.proxyType ≠ t
  add_self : ∀ {s s' who delegate t n}, dispatch s who (.addProxy delegate t n) = .ok s' →
    (proxies s'.1 who).Perm (⟨delegate, t, n⟩ :: proxies s.1 who)
  remove_self : ∀ {s s' who delegate t n}, dispatch s who (.removeProxy delegate t n) = .ok s' →
    (proxies s.1 who).Perm (⟨delegate, t, n⟩ :: proxies s'.1 who)
  clear_self : ∀ {s s' who}, dispatch s who .removeProxies = .ok s' → proxies s'.1 who = []
  other : ∀ {s s' who call}, dispatch s who call = .ok s' →
    ∀ a, a ≠ who → proxies s'.1 a = proxies s.1 a

/-- What a call of the pallet does to the grants of the one who makes it. -/
def ProxyCall.entry {A T U : Type} (who : A) :
    ProxyCall A T → Grants.Entry A (ProxyDefinition A T) U
  | .addProxy delegate t n => .granted who ⟨delegate, t, n⟩
  | .removeProxy delegate t n => .revoked who ⟨delegate, t, n⟩
  | .removeProxies => .cleared who

end Pallet

section Data

def systemAccountSize : U64 := .lit 148

def callDataLimit : ℕ := 2 ^ 16

structure EvmSubCall where
  to_ : H160
  value : U256
  callData : BoundedVec UInt8 callDataLimit

inductive AddressType where
  | unknown
  | eoa
  | precompile
  | contract
deriving DecidableEq

/-- What the runtime is configured with. `addressType` and the gas it takes are those of
`get_address_type`, `accountCodeLen` is the length of the code at an address. -/
structure Config (A T P W E M : Type) (max : ℕ) where
  metering : Metering M
  intoAccountId : H160 → A
  decodeProxyType : UInt8 → Option T
  maxProxies : ℕ
  isEvmProxyCallAllowed : T → EvmSubCall → Bool → U64 → Except PrecompileFailure Bool
  addressType : W → H160 → AddressType
  recordAddressType : W → H160 → M → Except ExitError M
  accountCodeLen : W → H160 → ℕ
  pallet : ProxyPallet A T P W E
  transferAllowDeath : W → A → A → Uint max → Except E W
  debug : E → String

/-- A subcall in the name of `real`: under which definition and in which context of the precompile,
the world and the gas left when the filter was asked, and the world the subcall starts from. -/
structure Proxied (A T W : Type) where
  real : A
  definition : ProxyDefinition A T
  context : Context
  subCall : EvmSubCall
  world : W
  gas : U64
  start : W
  call : SubCall

/-- `log` is not stored: it is what storage has seen of registrations and of subcalls. -/
structure State (A T P W : Type) where
  proxies : P
  world : W
  log : List (Grants.Entry A (ProxyDefinition A T) (Proxied A T W))

/-- The frames that a subcall runs in. -/
abbrev HandleCall (A T P W : Type) :=
  Proxied A T W → State A T P W → (ExitReason × List UInt8) × State A T P W

end Data

section Functions

variable {A T P W E M : Type} {max : ℕ} [DecidableEq A] [DecidableEq T]
  (cfg : Config A T P W E M max)

abbrev ProxyPrecompileCall (A T P W M α : Type) := Call (State A T P W × M) PrecompileFailure α

/-- A call of the pallet with the origin `who`. -/
def dispatchProxy (who : A) (call : ProxyCall A T) (s : State A T P W) :
    Except E (State A T P W) :=
  (cfg.pallet.dispatch (s.proxies, s.world) who call).map fun p =>
    { proxies := p.1, world := p.2, log := s.log ++ [call.entry who] }

def decodeType (proxyType : UInt8) (field : String) : ProxyPrecompileCall A T P W M T :=
  Call.okOr (cfg.decodeProxyType proxyType)
    (revert (field ++ ": Failed decoding value to ProxyType"))

/-- The read of the definitions of an account. -/
def recordProxiesRead : ProxyPrecompileCall A T P W M Unit :=
  meter (cfg.metering.recordDbRead (28 + 29 * cfg.maxProxies + 8))

def addProxy (ctx : Context) (delegate : H160) (proxyType : UInt8) (delay : U32) :
    ProxyPrecompileCall A T P W M Unit := do
  let proxyType ← decodeType cfg proxyType "proxyType"
  let origin := cfg.intoAccountId ctx.caller
  recordProxiesRead cfg
  let s ← storage
  -- disallow re-adding proxy via precompile to prevent re-entrancy
  Call.ensure (¬ (cfg.pallet.proxies s.proxies origin).any
    fun pd => pd.delegate = cfg.intoAccountId delegate) (revert "Cannot add more than one proxy")
  tryDispatch cfg.metering cfg.debug
    (dispatchProxy cfg origin (.addProxy (cfg.intoAccountId delegate) proxyType delay)) 0

def removeProxy (ctx : Context) (delegate : H160) (proxyType : UInt8) (delay : U32) :
    ProxyPrecompileCall A T P W M Unit := do
  let proxyType ← decodeType cfg proxyType "proxyType"
  tryDispatch cfg.metering cfg.debug (dispatchProxy cfg (cfg.intoAccountId ctx.caller)
    (.removeProxy (cfg.intoAccountId delegate) proxyType delay)) 0

def removeProxies (ctx : Context) : ProxyPrecompileCall A T P W M Unit :=
  tryDispatch cfg.metering cfg.debug
    (dispatchProxy cfg (cfg.intoAccountId ctx.caller) .removeProxies) 0

def isProxy (real delegate : H160) (proxyType : UInt8) (delay : U32) :
    ProxyPrecompileCall A T P W M Bool := do
  let proxyType ← decodeType cfg proxyType "proxyType"
  recordProxiesRead cfg
  let s ← storage
  pure ((cfg.pallet.proxies s.proxies (cfg.intoAccountId real)).any fun pd =>
    pd.delegate = cfg.intoAccountId delegate ∧ pd.proxyType = proxyType ∧ pd.delay = delay)

/-- The funds received by the precompile are sent back, and the subcall takes its value from the
account it is made for. -/
def sendBack (ctx : Context) (real : H160) (sub : EvmSubCall) :
    ProxyPrecompileCall A T P W M (Option Transfer) :=
  if sub.value.val = 0 then pure none
  else do
    let balance ← Call.okOr (sub.value.tryInto max) (.revert (.bytes []))
    tryDispatch cfg.metering cfg.debug (fun s =>
      (cfg.transferAllowDeath s.world (cfg.intoAccountId ctx.address)
        (cfg.intoAccountId ctx.caller) balance).map fun w => { s with world := w })
      systemAccountSize
    pure (some ⟨real, sub.to_, sub.value⟩)

/-- `handle.call`: what the EVM does with the storage. The gas it takes is not looked at again. -/
def handleCall (f : State A T P W → (ExitReason × List UInt8) × State A T P W) :
    ProxyPrecompileCall A T P W M (ExitReason × List UInt8) :=
  fun p => (.ok (f p.1).1, (f p.1).2, p.2)

def innerProxy (ctx : Context) (call : HandleCall A T P W) (real : H160)
    (forceProxyType : Option T) (sub : EvmSubCall) : ProxyPrecompileCall A T P W M Unit := do
  let s ← storage
  -- only on behalf of externally owned accounts
  meter (cfg.recordAddressType s.world real)
  Call.ensure (cfg.addressType s.world real = .eoa) (revert "real address must be EOA")
  recordProxiesRead cfg
  let definition ← Call.okOr (cfg.pallet.findProxy s.proxies (cfg.intoAccountId real)
    (cfg.intoAccountId ctx.caller) forceProxyType).toOption (revert "Not proxy")
  Call.ensure (definition.delay = 0) (revert "Unannounced")
  meter (cfg.metering.recordDbRead 41)
  let recipientHasCode : Bool := 0 < cfg.accountCodeLen s.world sub.to_
  let (_, m) ← Call.get
  let gas := cfg.metering.remainingGas m
  let allowed ← Call.lift (.ofExcept
    (cfg.isEvmProxyCallAllowed definition.proxyType sub recipientHasCode gas))
  Call.ensure (allowed = true) (revert "CallFiltered")
  let transfer ← sendBack cfg ctx real sub
  let (s₁, m) ← Call.get
  let (reason, output) ← handleCall (call {
    real := cfg.intoAccountId real
    definition := definition
    context := ctx
    subCall := sub
    world := s.world
    gas := gas
    start := s₁.world
    call := {
      codeAddress := sub.to_
      transfer := transfer
      input := sub.callData.val
      targetGas := some (cfg.metering.remainingGas m)
      isStatic := false
      context := ⟨sub.to_, real, sub.value⟩ } })
  match reason.failure output with
  | some e => Call.err e
  | none => pure ()

def proxy (ctx : Context) (call : HandleCall A T P W) (real callTo : H160)
    (callData : BoundedVec UInt8 callDataLimit) : ProxyPrecompileCall A T P W M Unit :=
  innerProxy cfg ctx call real none ⟨callTo, ctx.apparentValue, callData⟩

def proxyForceType (ctx : Context) (call : HandleCall A T P W) (real : H160)
    (forceProxyType : UInt8) (callTo : H160) (callData : BoundedVec UInt8 callDataLimit) :
    ProxyPrecompileCall A T P W M Unit := do
  let proxyType ← decodeType cfg forceProxyType "forceProxyType"
  innerProxy cfg ctx call real (some proxyType) ⟨callTo, ctx.apparentValue, callData⟩

end Functions

section Evm

inductive Request where
  | addProxy (delegate : H160) (proxyType : UInt8) (delay : U32)
  | removeProxy (delegate : H160) (proxyType : UInt8) (delay : U32)
  | removeProxies
  | proxy (real callTo : H160) (callData : BoundedVec UInt8 callDataLimit)
  | proxyForceType (real : H160) (forceProxyType : UInt8) (callTo : H160)
      (callData : BoundedVec UInt8 callDataLimit)
  | isProxy (real delegate : H160) (proxyType : UInt8) (delay : U32)

/-- What frames were run, one after the other: a request to the precompile, whose subcall, if it
makes one, ran `inner` and ended with `exit`, or any other frame. -/
inductive Activity (W M : Type) where
  | done
  | request (ctx : Context) (gas : M) (request : Request) (inner : Activity W M)
      (exit : ExitReason) (output : List UInt8) (next : Activity W M)
  | frame (inner : Activity W M) (exit : ExitReason) (next : Activity W M)
  | elsewhere (f : W → W) (next : Activity W M)

variable {A T P W E M : Type} {max : ℕ} [DecidableEq A] [DecidableEq T]
  (cfg : Config A T P W E M max)

def Request.run (ctx : Context) (call : HandleCall A T P W) :
    Request → ProxyPrecompileCall A T P W M Unit
  | .addProxy delegate proxyType delay => Proxy.addProxy cfg ctx delegate proxyType delay
  | .removeProxy delegate proxyType delay => Proxy.removeProxy cfg ctx delegate proxyType delay
  | .removeProxies => Proxy.removeProxies cfg ctx
  | .proxy real callTo callData => Proxy.proxy cfg ctx call real callTo callData
  | .proxyForceType real forceProxyType callTo callData =>
    Proxy.proxyForceType cfg ctx call real forceProxyType callTo callData
  | .isProxy real delegate proxyType delay => do
    let _ ← Proxy.isProxy cfg real delegate proxyType delay
    pure ()

/-- The storage after a frame that ended with `exit`. -/
def ended (exit : ExitReason) (before after : State A T P W) : State A T P W :=
  if exit = .succeed then after else before

def run : Activity W M → State A T P W → State A T P W
  | .done, s => s
  | .request ctx gas request inner exit output next, s =>
    let call (u : Proxied A T W) (s₁ : State A T P W) :=
      let s₂ := { s₁ with log := s₁.log ++ [.used u.real u.definition u] }
      ((exit, output), ended exit s₁ (run inner s₂))
    run next ((request.run cfg ctx call).transactional (s, gas)).2.1
  | .frame inner exit next, s => run next (ended exit s (run inner s))
  | .elsewhere f next, s => run next { s with world := f s.world }

inductive Op (A T W M : Type) where
  | transact (activity : Activity W M)
  /-- A call of `pallet_proxy` that is an extrinsic of `who`. -/
  | extrinsic (who : A) (call : ProxyCall A T)

def machine : Machine (State A T P W) (Op A T W M) Unit where
  genesis s := (∀ a, cfg.pallet.proxies s.proxies a = []) ∧ s.log = []
  exec s
    | .transact activity => ((), run cfg activity s)
    | .extrinsic who call => ((), (dispatchProxy cfg who call s).toOption.getD s)

end Evm

end Proxy

end Moonkit
