import Moonkit.Base.Currency
import Moonkit.Primitives

/-!
# The randomness pallet

`pallets/randomness/src/{types,lib,vrf}.rs`. Requests wait in `requests` for the randomness of a
block or of a relay epoch; `randomnessResults` holds, once for all requests of a `RequestType`,
the randomness and the number of requests that use it. Money a request pays in stays on the
pallet's account until the request is fulfilled or expires.

A function of the pallet is a `Call`: it hands its errors to the caller and keeps what it wrote
before them, as a plain function does without a storage transaction around it.
-/

namespace Moonkit

namespace Randomness

abbrev VrfId := Vector UInt8 32

structure PreDigest where
  vrfOutput : Vector UInt8 32
  vrfProof : Vector UInt8 64
deriving DecidableEq

/-- What the pallet uses of schnorrkel and of the codec of `Hash`. The transcript a proof is
checked against is made of the last block's output alone. -/
structure VrfScheme (Hash : Type) where
  decodePreDigest : List UInt8 → Option PreDigest
  validPublicKey : VrfId → Bool
  vrfVerify : VrfId → Hash → Vector UInt8 32 → Vector UInt8 64 → Bool
  makeBytes : VrfId → Hash → Vector UInt8 32 → Option (Vector UInt8 32)
  decodeHash : Vector UInt8 32 → Option Hash

structure Config (AccountId Hash Ledger : Type) where
  balanceMax : ℕ
  blockMax : ℕ
  currency : Currency AccountId Ledger balanceMax
  addressMapping : H160 → AccountId
  /-- The pallet's own account. -/
  accountId : AccountId
  hashAsRef : Hash → List UInt8
  hashDefault : Hash
  blake2_256 : List UInt8 → Vector UInt8 32
  vrf : VrfScheme Hash

variable {AccountId Hash Ledger : Type}

abbrev Balance (C : Config AccountId Hash Ledger) := Uint C.balanceMax

abbrev BlockNumber (C : Config AccountId Hash Ledger) := Uint C.blockMax

abbrev RequestId := U64

inductive Error where
  | requestCounterOverflowed
  | requestFeeOverflowed
  | mustRequestAtLeastOneWord
  | cannotRequestMoreWordsThanMax
  | cannotRequestRandomnessAfterMaxDelay
  | cannotRequestRandomnessBeforeMinDelay
  | requestDNE
  | requestCannotYetBeFulfilled
  | onlyRequesterCanIncreaseFee
  | requestHasNotExpired
  | randomnessResultDNE
  | randomnessResultNotFilled
deriving DecidableEq

inductive DispatchError where
  | pallet (e : Error)
  | token (e : TransferError)
  | badOrigin
deriving DecidableEq

/-- Shared request info, a subset of `RequestInfo`. -/
inductive RequestType (C : Config AccountId Hash Ledger) where
  | babeEpoch (epoch : U64)
  | localVrf (block : BlockNumber C)

instance (C : Config AccountId Hash Ledger) : DecidableEq (RequestType C)
  | .babeEpoch a, .babeEpoch b => decidable_of_iff (a = b) (by simp)
  | .localVrf a, .localVrf b => decidable_of_iff (a = b) (by simp)
  | .babeEpoch _, .localVrf _ => isFalse (by simp)
  | .localVrf _, .babeEpoch _ => isFalse (by simp)

inductive RequestInfo (C : Config AccountId Hash Ledger) where
  | babeEpoch (epoch expires : U64)
  | localVrf (block expires : BlockNumber C)

instance (C : Config AccountId Hash Ledger) : DecidableEq (RequestInfo C)
  | .babeEpoch a b, .babeEpoch c d => decidable_of_iff (a = c ∧ b = d) (by simp)
  | .localVrf a b, .localVrf c d => decidable_of_iff (a = c ∧ b = d) (by simp)
  | .babeEpoch _ _, .localVrf _ _ => isFalse (by simp)
  | .localVrf _ _, .babeEpoch _ _ => isFalse (by simp)

/-- The unique value for a `RequestType`: its randomness once available, and the number of
requests for it. -/
structure RandomnessResult (Hash : Type) where
  randomness : Option Hash
  requestCount : U64
deriving DecidableEq

structure Request (C : Config AccountId Hash Ledger) (Info : Type) where
  refundAddress : H160
  contractAddress : H160
  fee : Balance C
  gasLimit : U64
  numWords : UInt8
  salt : H256
  info : Info

instance (C : Config AccountId Hash Ledger) {Info : Type} [DecidableEq Info] :
    DecidableEq (Request C Info)
  | ⟨a, b, c, d, e, f, g⟩, ⟨a', b', c', d', e', f', g'⟩ =>
    decidable_of_iff (a = a' ∧ b = b' ∧ c = c' ∧ d = d' ∧ e = e' ∧ f = f' ∧ g = g') (by simp)

structure RequestState (C : Config AccountId Hash Ledger) where
  request : Request C (RequestInfo C)
  deposit : Balance C

instance (C : Config AccountId Hash Ledger) : DecidableEq (RequestState C)
  | ⟨a, b⟩, ⟨c, d⟩ => decidable_of_iff (a = c ∧ b = d) (by simp)

structure FulfillArgs (C : Config AccountId Hash Ledger) where
  request : Request C (RequestInfo C)
  deposit : Balance C
  randomness : List (Vector UInt8 32)

inductive Event (C : Config AccountId Hash Ledger) where
  | randomnessRequestedBabeEpoch (id : RequestId) (request : Request C Unit) (earliestEpoch : U64)
  | randomnessRequestedLocal (id : RequestId) (request : Request C Unit)
      (earliestBlock : BlockNumber C)
  | requestFulfilled (id : RequestId)
  | requestFeeIncreased (id : RequestId) (newFee : Balance C)
  | requestExpirationExecuted (id : RequestId)

/-- What the pallet logs and goes on. -/
inductive Warning where
  | failedTransferInFinishFulfill (e : TransferError)
  | failedToFillBabeEpochRandomnessResults (epoch : U64)
deriving DecidableEq

/-- The constants of the configuration; a runtime upgrade may change them. -/
structure Constants (C : Config AccountId Hash Ledger) where
  deposit : Balance C
  maxRandomWords : UInt8
  minBlockDelay : BlockNumber C
  maxBlockDelay : BlockNumber C
  blockExpirationDelay : BlockNumber C
  epochExpirationDelay : U64

structure Env (C : Config AccountId Hash Ledger) where
  constants : Constants C
  blockNumber : BlockNumber C
  digest : List DigestItem
  epochIndex : U64
  epochRandomness : Option Hash
  lookupKeys : NimbusId → Option VrfId
  fakeVrf : Bool

/-- The pallet's storage, with what it reads of the rest of the runtime. -/
structure State (C : Config AccountId Hash Ledger) where
  requests : StorageMap RequestId (RequestState C)
  requestCount : RequestId
  localVrfOutput : Option Hash
  relayEpoch : U64
  inherentIncluded : Bool
  notFirstBlock : Bool
  randomnessResults : StorageMap (RequestType C) (RandomnessResult Hash)
  previousLocalVrfOutput : Hash
  ledger : Ledger
  events : List (Event C)
  warnings : List Warning
  env : Env C

variable {C : Config AccountId Hash Ledger}

abbrev PalletCall (C : Config AccountId Hash Ledger) (α : Type) := Call (State C) DispatchError α

def Request.withInfo {Info Info' : Type} (r : Request C Info) (info : Info') : Request C Info' :=
  ⟨r.refundAddress, r.contractAddress, r.fee, r.gasLimit, r.numWords, r.salt, info⟩

def RequestType.intoInfo (s : State C) : RequestType C → RequestInfo C
  | .babeEpoch epoch =>
    .babeEpoch epoch (s.relayEpoch.saturatingAdd s.env.constants.epochExpirationDelay)
  | .localVrf block =>
    .localVrf block (s.env.blockNumber.saturatingAdd s.env.constants.blockExpirationDelay)

def RequestInfo.intoType : RequestInfo C → RequestType C
  | .babeEpoch epoch _ => .babeEpoch epoch
  | .localVrf block _ => .localVrf block

namespace RandomnessResult

def new : RandomnessResult Hash := ⟨none, (.lit 1)⟩

def incrementRequestCount (r : RandomnessResult Hash) : RandomnessResult Hash :=
  { r with requestCount := r.requestCount.saturatingAdd (.lit 1) }

/-- The result with one request less, unless that was the last one. -/
def decrementRequestCount (r : RandomnessResult Hash) : Option (RandomnessResult Hash) :=
  match r.requestCount.checkedSub (.lit 1) with
  | some newRequestCount =>
    if newRequestCount = 0 then none else some { r with requestCount := newRequestCount }
  | none => none

end RandomnessResult

section Currency

/-- `T::Currency::transfer` with `KeepAlive`. -/
def transfer (source dest : AccountId) (amount : Balance C) : PalletCall C Unit := fun s =>
  match C.currency.transfer s.ledger source dest amount with
  | .ok ledger => (.ok (), { s with ledger := ledger })
  | .error e => (.err (.token e), s)

def tryTransferOrLogError (source dest : AccountId) (amount : Balance C) : PalletCall C Unit :=
  fun s =>
    match C.currency.transfer s.ledger source dest amount with
    | .ok ledger => (.ok (), { s with ledger := ledger })
    | .error e =>
      (.ok (), { s with warnings := s.warnings ++ [.failedTransferInFinishFulfill e] })

def totalLocked (s : State C) : Balance C := C.currency.freeBalance s.ledger C.accountId

end Currency

def depositEvent (event : Event C) : PalletCall C Unit :=
  Call.modify fun s => { s with events := s.events ++ [event] }

def takeResult (key : RequestType C) : PalletCall C (Option (RandomnessResult Hash)) := do
  let s ← Call.get
  Call.modify fun s => { s with randomnessResults := s.randomnessResults.erase key }
  pure (s.randomnessResults.lookup key)

def insertResult (key : RequestType C) (result : RandomnessResult Hash) : PalletCall C Unit :=
  Call.modify fun s => { s with randomnessResults := s.randomnessResults.insert key result }

namespace Request

def isExpired (r : Request C (RequestInfo C)) (s : State C) : Bool :=
  match r.info with
  | .babeEpoch _ expires => expires ≤ s.relayEpoch
  | .localVrf _ expires => expires ≤ s.env.blockNumber

def canBeFulfilled (r : Request C (RequestInfo C)) (s : State C) : Bool :=
  match r.info with
  | .babeEpoch epochDue _ => epochDue ≤ s.relayEpoch
  | .localVrf blockDue _ => blockDue ≤ s.env.blockNumber

def validate (r : Request C (RequestInfo C)) : PalletCall C Unit := do
  let s ← Call.get
  Call.ensure (r.numWords ≤ s.env.constants.maxRandomWords)
    (.pallet .cannotRequestMoreWordsThanMax)
  Call.ensure (1 ≤ r.numWords) (.pallet .mustRequestAtLeastOneWord)
  match r.info with
  | .babeEpoch _ _ => pure ()
  | .localVrf blockDue _ => do
    let latest ← Call.okOr (s.env.blockNumber.checkedAdd s.env.constants.maxBlockDelay)
      (.pallet .cannotRequestRandomnessAfterMaxDelay)
    Call.ensure (blockDue ≤ latest) (.pallet .cannotRequestRandomnessAfterMaxDelay)
    let earliest ← Call.okOr (s.env.blockNumber.checkedAdd s.env.constants.minBlockDelay)
      (.pallet .cannotRequestRandomnessBeforeMinDelay)
    Call.ensure (earliest ≤ blockDue) (.pallet .cannotRequestRandomnessBeforeMinDelay)

/-- The words of one request: the hash of `randomness + salt + i` for `0 <= i < num_words`. -/
def computeRandomWords (C : Config AccountId Hash Ledger) (random : Hash) (salt : H256)
    (numWords : UInt8) : List (Vector UInt8 32) :=
  (List.range numWords.toNat).map fun index =>
    C.blake2_256 (C.hashAsRef random ++ salt.toList ++ [UInt8.ofNat index])

def getRandomWords (r : Request C (RequestInfo C)) : PalletCall C (List (Vector UInt8 32)) := do
  let s ← Call.get
  Call.ensure (r.canBeFulfilled s) (.pallet .requestCannotYetBeFulfilled)
  let result ← Call.okOr (s.randomnessResults.lookup r.info.intoType)
    (.pallet .randomnessResultDNE)
  let randomness ← Call.okOr result.randomness (.pallet .randomnessResultNotFilled)
  pure (computeRandomWords C randomness r.salt r.numWords)

def emitRandomnessRequestedEvent (r : Request C (RequestInfo C)) (id : RequestId) :
    PalletCall C Unit :=
  match r.info with
  | .babeEpoch index _ => depositEvent (.randomnessRequestedBabeEpoch id (r.withInfo ()) index)
  | .localVrf block _ => depositEvent (.randomnessRequestedLocal id (r.withInfo ()) block)

/-- Cleanup after fulfilling a request: the cost of execution goes to the caller and what is left
to the refund address. -/
def finishFulfill (r : Request C (RequestInfo C)) (deposit : Balance C) (caller : H160)
    (costOfExecution : Balance C) : PalletCall C Unit := do
  let refundCaller :=
    tryTransferOrLogError C.accountId (C.addressMapping caller) costOfExecution
  let refundableAmount := deposit.saturatingAdd r.fee
  match refundableAmount.checkedSub costOfExecution with
  | some excess =>
    if r.refundAddress = caller then
      tryTransferOrLogError C.accountId (C.addressMapping r.refundAddress)
        (excess.saturatingAdd costOfExecution)
    else do
      tryTransferOrLogError C.accountId (C.addressMapping r.refundAddress) excess
      refundCaller
  | none => refundCaller

end Request

namespace RequestState

def new (request : Request C (RequestInfo C)) : PalletCall C (RequestState C) := do
  request.validate
  let s ← Call.get
  pure ⟨request, s.env.constants.deposit⟩

def prepareFulfill (r : RequestState C) : PalletCall C (FulfillArgs C) := do
  let randomness ← r.request.getRandomWords
  pure ⟨r.request, r.deposit, randomness⟩

def increaseFee (r : RequestState C) (caller : H160) (feeIncrease : Balance C) :
    PalletCall C (Balance C × RequestState C) := do
  Call.ensure (caller = r.request.contractAddress) (.pallet .onlyRequesterCanIncreaseFee)
  let newFee ← Call.okOr (r.request.fee.checkedAdd feeIncrease) (.pallet .requestFeeOverflowed)
  transfer (C.addressMapping caller) C.accountId feeIncrease
  pure (newFee, { r with request := { r.request with fee := newFee } })

/-- Transfer deposit back to `contract_address` and the fee to the caller. -/
def executeExpiration [DecidableEq AccountId] (r : RequestState C) (caller : AccountId) :
    PalletCall C Unit := do
  let s ← Call.get
  Call.ensure (r.request.isExpired s) (.pallet .requestHasNotExpired)
  let contractAddress := C.addressMapping r.request.contractAddress
  if caller = contractAddress then
    transfer C.accountId contractAddress (r.deposit.saturatingAdd r.request.fee)
  else do
    transfer C.accountId contractAddress r.deposit
    transfer C.accountId caller r.request.fee

end RequestState

section Vrf

/-- The items up to the first VRF item: the VRF key of the last nimbus item before it, and the
VRF pre-digest. -/
def findPreDigest (s : State C) :
    List DigestItem → Option VrfId → PalletCall C (Option VrfId × PreDigest)
  | [], _ => Call.panic
      "VRF PreDigest was not included in the digests (check rand key is in keystore)"
  | item :: logs, blockAuthorVrfId =>
    match item.asPreRuntime with
    | none => findPreDigest s logs blockAuthorVrfId
    | some (id, data) =>
      if id = vrfEngineId then do
        let vrfDigest ← Call.expect (C.vrf.decodePreDigest data)
          "VRF digest encoded in pre-runtime digest must be valid"
        pure (blockAuthorVrfId, vrfDigest)
      else if id = nimbusEngineId then do
        let nimbusId ← Call.expect (Bytes.decode 32 data)
          "NimbusId encoded in pre-runtime digest must be valid"
        let vrfId ← Call.expect (s.env.lookupKeys nimbusId) "No VRF Key Mapped to this NimbusId"
        findPreDigest s logs (some vrfId)
      else findPreDigest s logs blockAuthorVrfId

def getAndVerifyRandomness : PalletCall C Hash := do
  let s ← Call.get
  let (blockAuthorVrfId, preDigest) ← findPreDigest s s.env.digest none
  let blockAuthorVrfId ← Call.expect blockAuthorVrfId
    "VrfId encoded in pre-runtime digest must be valid"
  Call.assert (C.vrf.validPublicKey blockAuthorVrfId)
    "Expect VrfId to be valid schnorrkel public key"
  let vrfInput := s.localVrfOutput.getD C.hashDefault
  Call.assert (C.vrf.vrfVerify blockAuthorVrfId vrfInput preDigest.vrfOutput preDigest.vrfProof)
    "VRF signature verification failed"
  let randomness ← Call.expect (C.vrf.makeBytes blockAuthorVrfId vrfInput preDigest.vrfOutput)
    "Transforming VrfOutput into randomness bytes failed"
  Call.expect (C.vrf.decodeHash randomness) "Bytes can be decoded into T::Hash"

/-- Puts the block's VRF output in `localVrfOutput` and fills the result of the block, if there
is one. -/
def verifyAndSetOutput : PalletCall C Unit := do
  let s ← Call.get
  let randomness ← (if s.env.fakeVrf then pure C.hashDefault else getAndVerifyRandomness)
  Call.modify fun s => { s with localVrfOutput := some randomness }
  let localVrfThisBlock : RequestType C := .localVrf s.env.blockNumber
  match s.randomnessResults.lookup localVrfThisBlock with
  | some results => insertResult localVrfThisBlock { results with randomness := some randomness }
  | none => pure ()

end Vrf

section Hooks

def onInitialize : PalletCall C Unit := do
  let s ← Call.get
  if s.notFirstBlock then verifyAndSetOutput
  else Call.modify fun s =>
    { s with notFirstBlock := true, localVrfOutput := some C.hashDefault }

def onFinalize : PalletCall C Unit := do
  let s ← Call.get
  Call.modify fun s => { s with inherentIncluded := false }
  Call.assert s.inherentIncluded
    "Mandatory randomness inherent not included; InherentIncluded storage item is empty"
  let localVrfOutput ← Call.expect s.localVrfOutput "LocalVrfOutput must exist; qed"
  Call.modify fun s => { s with previousLocalVrfOutput := localVrfOutput }

/-- The mandatory inherent: fills the result of the relay epoch, when it is a new one. -/
def setBabeRandomnessResults [DecidableEq AccountId] (origin : RawOrigin AccountId) :
    PalletCall C Unit := do
  Call.ensure (origin = .none) .badOrigin
  let s ← Call.get
  let relayEpochIndex := s.env.epochIndex
  if s.relayEpoch < relayEpochIndex then do
    let babeOneEpochAgoThisBlock : RequestType C := .babeEpoch relayEpochIndex
    match s.randomnessResults.lookup babeOneEpochAgoThisBlock with
    | some results =>
      match s.env.epochRandomness with
      | some randomness =>
        insertResult babeOneEpochAgoThisBlock { results with randomness := some randomness }
      | none =>
        Call.modify fun s => { s with
          warnings := s.warnings ++ [.failedToFillBabeEpochRandomnessResults relayEpochIndex] }
    | none => pure ()
  Call.modify fun s => { s with relayEpoch := relayEpochIndex }
  Call.modify fun s => { s with inherentIncluded := true }

end Hooks

section Public

def requestRandomness (request : Request C (RequestType C)) : PalletCall C RequestId := do
  let s ← Call.get
  let request ← RequestState.new (request.withInfo (request.info.intoInfo s))
  let info := request.request.info
  let totalToReserve := s.env.constants.deposit.saturatingAdd request.request.fee
  let contractAddress := C.addressMapping request.request.contractAddress
  let requestId := s.requestCount
  let nextId ← Call.okOr (requestId.checkedAdd (.lit 1))
    (.pallet .requestCounterOverflowed)
  transfer contractAddress C.accountId totalToReserve
  let infoKey := info.intoType
  match ← takeResult infoKey with
  | some existingRandomnessSnapshot =>
    insertResult infoKey existingRandomnessSnapshot.incrementRequestCount
  | none => insertResult infoKey .new
  Call.modify fun s => { s with requestCount := nextId }
  request.request.emitRandomnessRequestedEvent requestId
  Call.modify fun s => { s with requests := s.requests.insert requestId request }
  pure requestId

def prepareFulfillment (id : RequestId) : PalletCall C (FulfillArgs C) := do
  let s ← Call.get
  let request ← Call.okOr (s.requests.lookup id) (.pallet .requestDNE)
  request.prepareFulfill

/-- One request less on the result of `infoKey`, which goes with the last one. -/
def decrementResult (infoKey : RequestType C) : PalletCall C Unit := do
  match ← takeResult infoKey with
  | some result =>
    match result.decrementRequestCount with
    | some newResult => insertResult infoKey newResult
    | none => pure ()
  | none => pure ()

/-- Caller must ensure `id` corresponds to `request`. -/
def finishFulfillment (id : RequestId) (request : Request C (RequestInfo C)) (deposit : Balance C)
    (caller : H160) (costOfExecution : Balance C) : PalletCall C Unit := do
  request.finishFulfill deposit caller costOfExecution
  decrementResult request.info.intoType
  Call.modify fun s => { s with requests := s.requests.erase id }
  depositEvent (.requestFulfilled id)

def increaseRequestFee (caller : H160) (id : RequestId) (feeIncrease : Balance C) :
    PalletCall C Unit := do
  let s ← Call.get
  let request ← Call.okOr (s.requests.lookup id) (.pallet .requestDNE)
  let (newFee, request) ← request.increaseFee caller feeIncrease
  Call.modify fun s => { s with requests := s.requests.insert id request }
  depositEvent (.requestFeeIncreased id newFee)

/-- Transfers the fee to the caller and purges the request iff it has expired. -/
def executeRequestExpiration [DecidableEq AccountId] (caller : H160) (id : RequestId) :
    PalletCall C Unit := do
  let s ← Call.get
  let request ← Call.okOr (s.requests.lookup id) (.pallet .requestDNE)
  let caller := C.addressMapping caller
  request.executeExpiration caller
  decrementResult request.request.info.intoType
  Call.modify fun s => { s with requests := s.requests.erase id }
  depositEvent (.requestExpirationExecuted id)

end Public

end Randomness

end Moonkit
