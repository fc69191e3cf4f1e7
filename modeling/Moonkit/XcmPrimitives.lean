import Moonkit.Base.Uint
import Moonkit.Base.Window
import Moonkit.Primitives

/-!
# XCM primitives

`primitives/xcm/src/generators.rs` and `primitives/xcm/src/location_matcher.rs`. A precompile is
told where to send by a number or a key, and what to send by the address of an asset on this chain;
the generators and the matchers give the locations.
-/

namespace Moonkit

namespace Xcm

/-- A junction. Networks `N` are named by the accounts only; `J` are the junctions that nothing here
makes. -/
inductive Junction (N J : Type) where
  | parachain (id : U32)
  | accountId32 (network : Option N) (id : H256)
  | accountKey20 (network : Option N) (key : H160)
  | palletInstance (index : UInt8)
  | other (junction : J)

def maxJunctions : ℕ := 8

structure Location (N J : Type) where
  parents : UInt8
  interior : BoundedVec (Junction N J) maxJunctions

namespace Location

variable {N J : Type}

def new (parents : UInt8) (interior : List (Junction N J))
    (h : Nat.ble interior.length maxJunctions = true := by exact Eq.refl true) : Location N J :=
  ⟨parents, interior, Nat.le_of_ble_eq_true h⟩

def parent : Location N J := new 1 []

end Location

section Generators

variable {N J : Type}

def XcmSiblingDestinationGenerator.generate (paraId : U32) : Location N J :=
  Location.new 1 [.parachain paraId]

def XcmLocalBeneficiary20Generator.generate (key : H160) : Location N J :=
  Location.new 0 [.accountKey20 none key]

def XcmLocalBeneficiary32Generator.generate (id : H256) : Location N J :=
  Location.new 0 [.accountId32 none id]

end Generators

section Matchers

/-- `H160::from_low_u64_be` -/
def lowU64Be (a : U64) : H160 :=
  ⟨(List.replicate 12 0 ++ Bytes.toBe 8 a.val).toArray, by simp⟩

/-- What the matchers are told of the accounts `A` and the asset ids `I` of the chain.
`accountToAssetId` is `AccountIdAssetIdConversion::account_to_asset_id`. -/
structure Accounts (A I : Type) where
  ofH160 : H160 → A
  toH160 : A → H160
  accountToAssetId : A → Option (List UInt8 × I)

variable {A I N J : Type} [DecidableEq A] (R : Accounts A I)

/-- `index` is that of the pallet. -/
def SingleAddressMatcher.convert (address : U64) (index : ℕ) (account : A) :
    Option (Location N J) :=
  if account = R.ofH160 (lowU64Be address) then
    some (Location.new 0 [.palletInstance (UInt8.ofNat index)])
  else none

/-- `convertBack` is that of the locations and asset ids. -/
def ForeignAssetMatcher.convert (convertBack : I → Option (Location N J)) (account : A) :
    Option (Location N J) :=
  (R.accountToAssetId account).bind fun id => convertBack id.2

/-- `index` is that of the pallet. -/
def Erc20PalletMatcher.convert (index : ℕ) (account : A) : Option (Location N J) :=
  some (Location.new 0
    [.palletInstance (UInt8.ofNat index), .accountKey20 none (R.toH160 account)])

/-- A member of a tuple of matchers. -/
inductive Matcher where
  | singleAddress (address : U64) (index : ℕ)
  | foreignAsset
  | erc20Pallet (index : ℕ)

def Matcher.convert (convertBack : I → Option (Location N J)) :
    Matcher → A → Option (Location N J)
  | singleAddress address index => SingleAddressMatcher.convert R address index
  | foreignAsset => ForeignAssetMatcher.convert R convertBack
  | erc20Pallet index => Erc20PalletMatcher.convert R index

/-- `AccountIdToLocationMatcher::convert` of a tuple: the first member that has a location. -/
def convert (matchers : List Matcher) (convertBack : I → Option (Location N J)) (account : A) :
    Option (Location N J) :=
  matchers.findSome? fun matcher => matcher.convert R convertBack account

end Matchers

end Xcm

end Moonkit
