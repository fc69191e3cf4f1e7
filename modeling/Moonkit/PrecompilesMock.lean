import Moonkit.Precompiles

/-!
# The mock runtime of the precompiles

`precompiles/balances-erc20/src/mock.rs` and its siblings: accounts are addresses, the chain id is
zero, and the gas of a frame does not run out. A public key is a stand-in that starts with its
address, and a signature holds a key and the recovery byte 27.
-/

namespace Moonkit

namespace Precompile

namespace Mock

def crypto : Crypto FreeDigest where
  keccak256 := Hasher.free
  secp256k1EcdsaRecover sig _ := if sig[64] = 27 then some (sig.take 64) else none
  address key := key.take 20

def metering : Metering Unit where
  remainingGas _ := .lit 1000000
  recordCost _ := .ok
  recordDbRead _ := .ok
  recordLogCostsManual _ _ := .ok
  log := .ok
  recordDispatch _ := .ok
  refundDispatch := .ok
  dbReadGasCost := 0
  dbWriteGasCost := 0

def runtime : Runtime FreeDigest H160 Unit where
  crypto := crypto
  chainId := 0
  metering := metering
  intoAccountId := id

/-- The address with this last byte. -/
def account (b : UInt8) : H160 := (Vector.replicate 19 0).push b

def alith : H160 := account 10

def bob : H160 := account 11

def charlie : H160 := account 12

/-- `AddressU64<1>` -/
def precompile : H160 := account 1

def signature (who : H160) (n : UInt8) : Signature where
  v := 27
  r := who ++ (Vector.replicate 12 0 : Vector UInt8 12)
  s := Vector.replicate 32 n

/-- A call by `caller` to the contract at `address` without value. -/
def context (caller address : H160) : Context := ⟨address, caller, 0⟩

end Mock

end Precompile

end Moonkit
