import Moonkit.Base.TypedData
import Moonkit.Primitives

/-!
# What the precompiles share

A precompile runs in a frame: the storage of the chain, and a meter of the gas the frame may use.
Metering is the EVM's and is a parameter. The permits of `precompiles/call-permit`,
`precompiles/balances-erc20` and `precompiles/assets-erc20` are typed data signed with ECDSA; their
domain separators and digests differ in names and arguments only.
-/

namespace Moonkit

abbrev U128 := Uint (2 ^ 128 - 1)

abbrev U256 := Uint (2 ^ 256 - 1)

def U256.ofU64 (a : U64) : U256 := ⟨a.val, a.le_max.trans (by decide)⟩

def U256.one : U256 := .lit 1

/-- `TryFrom<U256>` of a balance. -/
def U256.tryInto (max : ℕ) (a : U256) : Option (Uint max) :=
  if h : a.val ≤ max then some ⟨a.val, h⟩ else none

/-- The balance, or the highest one where it is too large. -/
def U256.saturatingInto (max : ℕ) (a : U256) : Uint max := (a.tryInto max).getD ⟨max, le_rfl⟩

theorem U256.tryInto_eq_some {max : ℕ} {a : U256} {b : Uint max} :
    a.tryInto max = some b ↔ b.val = a.val := by
  unfold tryInto
  split_ifs with h
  · simp only [Option.some.injEq]
    exact ⟨fun hb => by rw [← hb], fun hb => Uint.ext_val hb.symm⟩
  · simp only [false_iff]
    have := b.le_max
    omega

theorem U256.saturatingInto_val (max : ℕ) (a : U256) :
    (a.saturatingInto max).val = min a.val max := by
  unfold saturatingInto tryInto
  split_ifs with h
  · exact (min_eq_left h).symm
  · exact (min_eq_right (Nat.le_of_not_le h)).symm

namespace Precompile

structure Context where
  address : H160
  caller : H160
  apparentValue : U256
deriving DecidableEq

structure Transfer where
  source : H160
  target : H160
  value : U256
deriving DecidableEq

/-- A call handed to the EVM. -/
structure SubCall where
  codeAddress : H160
  transfer : Option Transfer
  input : List UInt8
  targetGas : Option U64
  isStatic : Bool
  context : Context
deriving DecidableEq

inductive ExitError where
  | outOfGas
  | other (reason : String)
deriving DecidableEq

inductive ExitReason where
  | succeed
  | error (e : ExitError)
  | revert
  | fatal (reason : String)
deriving DecidableEq

/-- The output of a reverted call: a message the precompile encodes, or the bytes of a subcall. -/
inductive RevertOutput where
  | message (text : String)
  | bytes (output : List UInt8)
deriving DecidableEq

inductive PrecompileFailure where
  | error (exitStatus : ExitError)
  | revert (output : RevertOutput)
  | fatal (exitStatus : String)
deriving DecidableEq

def revert (text : String) : PrecompileFailure := .revert (.message text)

/-- The failure of a subcall, handed on with its output; a success has none. -/
def ExitReason.failure (output : List UInt8) : ExitReason → Option PrecompileFailure
  | succeed => none
  | error e => some (.error e)
  | revert => some (.revert (.bytes output))
  | fatal f => some (.fatal f)

/-- The gas of a frame, as the EVM meters it. -/
structure Metering (M : Type) where
  remainingGas : M → U64
  recordCost : U64 → M → Except ExitError M
  recordDbRead : ℕ → M → Except ExitError M
  recordLogCostsManual : ℕ → ℕ → M → Except ExitError M
  log : M → Except ExitError M
  recordDispatch : U64 → M → Except ExitError M
  refundDispatch : M → Except ExitError M
  dbReadGasCost : U64
  dbWriteGasCost : U64

section Frame

variable {σ M E : Type}

/-- Gas of the frame. -/
def meter (f : M → Except ExitError M) : Call (σ × M) PrecompileFailure Unit := fun p =>
  match f p.2 with
  | .ok m => (.ok (), p.1, m)
  | .error e => (.err (.error e), p)

def storage : Call (σ × M) PrecompileFailure σ := fun p => (.ok p.1, p)

def write (f : σ → σ) : Call (σ × M) PrecompileFailure Unit := fun p => (.ok (), f p.1, p.2)

/-- `RuntimeHelper::try_dispatch` of a call `x` of the runtime. -/
def tryDispatch (G : Metering M) (debug : E → String) (x : σ → Except E σ) (storageGrowth : U64) :
    Call (σ × M) PrecompileFailure Unit := do
  meter (G.recordDispatch storageGrowth)
  let s ← storage
  match x s with
  | .error e => Call.err (revert ("Dispatched call failed with error: " ++ debug e))
  | .ok s' =>
    write fun _ => s'
    meter G.refundDispatch

theorem exceptMap_eq_ok {α β : Type} {x : Except E α} {f : α → β} {b : β} :
    x.map f = .ok b ↔ ∃ a, x = .ok a ∧ f a = b := by
  cases x <;> simp [Except.map]

theorem meter_eq_ok {f : M → Except ExitError M} {p p' : σ × M} {u : Unit} :
    meter f p = (.ok u, p') ↔ f p.2 = .ok p'.2 ∧ p'.1 = p.1 := by
  unfold meter
  rcases f p.2 with e | m
  · simp
  · obtain ⟨s', m'⟩ := p'
    simp only [Prod.mk.injEq, true_and, Except.ok.injEq]
    exact ⟨fun h => ⟨h.2, h.1.symm⟩, fun h => ⟨h.2.symm, h.1⟩⟩

@[simp] theorem storage_bind {α : Type} (f : σ → Call (σ × M) PrecompileFailure α) (p : σ × M) :
    (storage >>= f) p = f p.1 p := rfl

@[simp] theorem write_bind {α : Type} (g : σ → σ) (f : Unit → Call (σ × M) PrecompileFailure α)
    (p : σ × M) : (write g >>= f) p = f () (g p.1, p.2) := rfl

/-- What a metered call followed by `f` needs to answer. -/
theorem meter_bind_eq_ok {α : Type} {g : M → Except ExitError M}
    {f : Unit → Call (σ × M) PrecompileFailure α} {s : σ} {m : M} {a : α} {p' : σ × M} :
    (meter g >>= f) (s, m) = (.ok a, p') ↔ ∃ m', g m = .ok m' ∧ f () (s, m') = (.ok a, p') := by
  rw [Call.bind_eq_ok]
  constructor
  · rintro ⟨u, ⟨s₁, m₁⟩, hm, hf⟩
    obtain ⟨hg, rfl⟩ := meter_eq_ok.1 hm
    exact ⟨m₁, hg, hf⟩
  · rintro ⟨m', hg, hf⟩
    exact ⟨(), (s, m'), meter_eq_ok.2 ⟨hg, rfl⟩, hf⟩

theorem tryDispatch_eq_ok {G : Metering M} {debug : E → String} {x : σ → Except E σ} {n : U64}
    {p p' : σ × M} {u : Unit} (h : tryDispatch G debug x n p = (.ok u, p')) :
    x p.1 = .ok p'.1 := by
  obtain ⟨s, m⟩ := p
  unfold tryDispatch at h
  obtain ⟨m₁, -, h⟩ := meter_bind_eq_ok.1 h
  rw [storage_bind] at h
  show x s = .ok p'.1
  rcases hx : x s with e | s' <;> simp only [hx] at h
  · simp [Call.err] at h
  · rw [write_bind] at h
    rw [(meter_eq_ok.1 h).2]

section Keeps

variable {τ : Type} {f : σ → τ}

theorem keeps_meter (g : M → Except ExitError M) :
    Call.Keeps (fun p => f p.1) (meter g : Call (σ × M) PrecompileFailure Unit) := by
  intro p
  unfold meter
  rcases g p.2 with e | m <;> rfl

theorem keeps_write {g : σ → σ} (hg : ∀ s, f (g s) = f s) :
    Call.Keeps (fun p => f p.1) (write g : Call (σ × M) PrecompileFailure Unit) := fun p => hg p.1

theorem keeps_tryDispatch {G : Metering M} {debug : E → String} {x : σ → Except E σ} (n : U64)
    (hx : ∀ s s', x s = .ok s' → f s' = f s) :
    Call.Keeps (fun p => f p.1) (tryDispatch G debug x n) := by
  refine (keeps_meter _).bind fun _ p => ?_
  rw [storage_bind]
  rcases h : x p.1 with e | s'
  · rfl
  · exact (keeps_meter G.refundDispatch (s', p.2)).trans (hx _ _ h)

end Keeps

end Frame

structure Log (D : Type) where
  address : H160
  topics : List (TypedData.Arg D)
  data : List (TypedData.Arg D)

def log2 {D : Type} (address : H160) (selector : D) (a : H160) (value : U256) : Log D :=
  ⟨address, [.digest selector, .address a], [.uint value]⟩

def log3 {D : Type} (address : H160) (selector : D) (a b : H160) (value : U256) : Log D :=
  ⟨address, [.digest selector, .address a, .address b], [.uint value]⟩

section Permits

/-- `keccak_256` without collisions, the recovery of a public key from a signature, and the address
of a public key. -/
structure Crypto (D : Type) where
  keccak256 : Hasher D
  secp256k1EcdsaRecover : Vector UInt8 65 → D → Option (Vector UInt8 64)
  address : Vector UInt8 64 → H160

structure Signature where
  v : UInt8
  r : H256
  s : H256
deriving DecidableEq

def Signature.bytes (sig : Signature) : Vector UInt8 65 := (sig.r ++ sig.s).push sig.v

variable {D σ : Type} (C : Crypto D)

open TypedData

/-- The address whose key signed the digest. -/
def Crypto.signer (sig : Signature) (permit : D) : Option H160 :=
  (C.secp256k1EcdsaRecover sig.bytes permit).map C.address

def zeroAddress : H160 := Vector.replicate 20 0

def ensureSigned (who : H160) (sig : Signature) (permit : D) : Call σ PrecompileFailure Unit := do
  let signer ← Call.okOr (C.signer sig permit) (revert "Invalid permit")
  Call.ensure (signer ≠ zeroAddress ∧ signer = who) (revert "Invalid permit")

def permitDomain : D :=
  C.keccak256.hash (ofString
    "EIP712Domain(string name,string version,uint256 chainId,address verifyingContract)")

def domainSeparator (chainId : U64) (name : List UInt8) (address : H160) : D :=
  argsDigest C.keccak256 [.digest (permitDomain C), .digest (C.keccak256.hash (ofBytes name)),
    .digest (C.keccak256.hash (ofString "1")), .uint (U256.ofU64 chainId), .address address]

/-- The digest that is signed for a permit with these arguments. -/
def permitDigest (domain : D) (content : List (Arg D)) : D :=
  signingDigest C.keccak256 domain (argsDigest C.keccak256 content)

/-- Blockchain time is in milliseconds; that of the permits is in seconds. -/
def seconds (now : U128) : U256 :=
  ⟨now.val / 1000, (Nat.div_le_self _ _).trans (now.le_max.trans (by decide))⟩

variable {C}

theorem ensureSigned_bind_eq_ok {β : Type} {who : H160} {sig : Signature} {permit : D}
    {f : Unit → Call σ PrecompileFailure β} {s s' : σ} {b : β}
    (h : (ensureSigned C who sig permit >>= f) s = (.ok b, s')) :
    C.signer sig permit = some who ∧ f () s = (.ok b, s') := by
  unfold ensureSigned at h
  rw [Call.bind_assoc] at h
  obtain ⟨signer, hsigner, h⟩ := Call.okOr_bind_eq_ok.1 h
  obtain ⟨⟨-, rfl⟩, hf⟩ := Call.ensure_bind_eq_ok.1 h
  exact ⟨hsigner, hf⟩

theorem domainSeparator_inj {chainId : U64} {name name' : List UInt8} {a a' : H160}
    (h : domainSeparator C chainId name a = domainSeparator C chainId name' a') : a = a' := by
  unfold domainSeparator at h
  have hargs := argsDigest_inj (by rfl) h
  simp only [List.cons.injEq, Arg.address.injEq] at hargs
  exact hargs.2.2.2.2.1

theorem permitDigest_inj {d d' : D} {l l' : List (Arg D)} (hk : l.map Arg.kind = l'.map Arg.kind)
    (h : permitDigest C d l = permitDigest C d' l') : d = d' ∧ l = l' := by
  obtain ⟨hd, hl⟩ := signingDigest_inj h
  exact ⟨hd, argsDigest_inj hk hl⟩

end Permits

/-- What the runtime gives the token precompiles. -/
structure Runtime (D A M : Type) where
  crypto : Crypto D
  chainId : U64
  metering : Metering M
  intoAccountId : H160 → A

end Precompile

end Moonkit
