import Moonkit.RandomnessRun

/-!
# The mock runtime of the randomness pallet

`pallets/randomness/src/mock.rs`: accounts are addresses, balances are `u128`, block numbers are
`u32`, and the existential deposit is zero.
-/

namespace Moonkit

namespace Randomness

namespace Mock

abbrev Ledger := Issued H160 (2 ^ 128 - 1)

/-- The account of `PalletId(*b"moonrand")`, truncated to an address. -/
def palletAccount : H160 :=
  #v[109, 111, 100, 108, 109, 111, 111, 110, 114, 97, 110, 100, 0, 0, 0, 0, 0, 0, 0, 0]

/-- The mock runtime, with the first bytes of its argument as a stand-in for the hash. -/
def test : Config H160 H256 Ledger where
  balanceMax := 2 ^ 128 - 1
  blockMax := 2 ^ 32 - 1
  currency := Currency.checked H160 (2 ^ 128 - 1) 0
  addressMapping := id
  accountId := palletAccount
  hashAsRef := Vector.toList
  hashDefault := Vector.replicate 32 0
  blake2_256 bytes := Vector.ofFn fun i => bytes.getD i.val 0
  vrf :=
    { decodePreDigest := fun _ => none
      validPublicKey := fun _ => false
      vrfVerify := fun _ _ _ _ => false
      makeBytes := fun _ _ _ => none
      decodeHash := some }

def constants : Constants test where
  deposit := .lit 10
  maxRandomWords := 1
  minBlockDelay := .lit 2
  maxBlockDelay := .lit 20
  blockExpirationDelay := .lit 20
  epochExpirationDelay := .lit 20

def alice : H160 := Vector.replicate 20 0xAA

def bob : H160 := Vector.replicate 20 0xBB

/-- What a block of the mock runtime gives the pallet: the relay epoch and the block number, with
the VRF of the tests. -/
def env (epochIndex : U64) (blockNumber : BlockNumber test) : Env test where
  constants := constants
  blockNumber := blockNumber
  digest := []
  epochIndex := epochIndex
  epochRandomness := some (Vector.replicate 32 0)
  lookupKeys := fun _ => none
  fakeVrf := true

def buildDefaultRequest (info : RequestType test) : Request test (RequestType test) where
  refundAddress := bob
  contractAddress := alice
  fee := .lit 5
  gasLimit := .lit 100
  numWords := 1
  salt := Vector.replicate 32 0
  info := info

def stored (fee : Balance test) (info : RequestInfo test) : RequestState test where
  request := { (buildDefaultRequest info.intoType).withInfo info with fee := fee }
  deposit := constants.deposit

/-- Empty storage before the first block; all that was issued is on the account of `alice`. -/
def genesis (balance : Balance test) : State test where
  requests := ∅
  requestCount := 0
  localVrfOutput := none
  relayEpoch := 0
  inherentIncluded := false
  notFirstBlock := false
  randomnessResults := ∅
  previousLocalVrfOutput := Vector.replicate 32 0
  ledger := ⟨balance, fun account => if account = alice then balance else 0⟩
  events := []
  warnings := []
  env := env 0 0

theorem genesis_genesis (balance : Balance test) : (machine test).genesis (genesis balance) :=
  ⟨rfl, rfl, rfl, rfl, rfl⟩

/-- A block: it begins, sets the relay randomness, goes through `actions` and ends. -/
def block (epochIndex : U64) (blockNumber : BlockNumber test) (actions : List (Action test)) :
    List (Op test) :=
  ([Action.newBlock (env epochIndex blockNumber), .setBabeRandomnessResults .none] ++ actions
    ++ [Action.endBlock]).map (⟨·, true⟩)

/-- The history and the state of executing `ops` from a genesis where `alice` has 100. -/
def replayed (ops : List (Op test)) : List (RunEvent test) × State test :=
  (machine test).replay [] (genesis (.lit 100)) ops

theorem run_replayed {allow : List (RunEvent test) → State test → Op test → Prop}
    (ops : List (Op test))
    (ha : (machine test).AllowsAll allow [] (genesis (.lit 100)) ops) :
    Machine.Run (machine test) allow (replayed ops).1 (replayed ops).2 :=
  Machine.run_replay ops (.start (genesis_genesis _)) ha

/-- Two requests for block 3, and in that block `actions`. -/
def twoRequests (actions : List (Action test)) : List (Op test) :=
  block (.lit 1) (.lit 1)
    [.requestRandomness (buildDefaultRequest (.localVrf (.lit 3))),
      .requestRandomness (buildDefaultRequest (.localVrf (.lit 3)))]
  ++ block (.lit 1) (.lit 2) []
  ++ block (.lit 1) (.lit 3) actions

/-- Finishing the fulfilment of the first request, prepared when its fee was `fee`. -/
def finishFirst (fee : Balance test) : Action test :=
  .finishFulfillment 0 (stored fee (.localVrf (.lit 3) (.lit 21))).request
    constants.deposit bob (.lit 4)

end Mock

end Randomness

end Moonkit
