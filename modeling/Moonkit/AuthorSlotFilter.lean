import Moonkit.Base.Machine
import Moonkit.Base.Uint
import Moonkit.Primitives

/-!
# The author-slot-filter pallet

`pallets/author-slot-filter/src/lib.rs`, `num.rs` and `migration.rs`. In each slot a pseudo-random
subset of the potential authors is eligible; its size is a number that genesis, `set_eligible` and
a migration write.
-/

namespace Moonkit

namespace AuthorSlotFilter

/-- `u32::from_le_bytes` -/
def fromLeBytes (bytes : Vector UInt8 4) : U32 :=
  ⟨Bytes.ofLe bytes.toList, Nat.le_pred_of_lt (by simpa using Bytes.ofLe_lt bytes.toList)⟩

/-- A `u32` that is meant not to be zero. The type does not say so: its constructors do. -/
structure NonZeroU32 where
  val : U32
deriving DecidableEq

namespace NonZeroU32

def new (n : U32) : Option NonZeroU32 := if n ≠ 0 then some ⟨n⟩ else none

def newUnchecked (n : U32) : NonZeroU32 := ⟨n⟩

def get (n : NonZeroU32) : U32 := n.val

/-- The SCALE codec. -/
def decode (input : List UInt8) : Except String NonZeroU32 :=
  match Bytes.decode 4 input with
  | none => .error "Not enough data to fill buffer"
  | some bytes =>
    match new (fromLeBytes bytes) with
    | none => .error "cannot create non-zero number from 0"
    | some n => .ok n

/-- The serde deserializer, on what it reads as a `u32`. -/
def deserialize (value : Except String U32) : Except String NonZeroU32 := do
  match new (← value) with
  | some nonzero => .ok nonzero
  | none => .error "expected a non-zero value"

end NonZeroU32

abbrev EligibilityValue := NonZeroU32

/-- Default total number of eligible authors, must NOT be 0. -/
def EligibilityValue.default : EligibilityValue := .newUnchecked (.lit 50)

structure Percent where
  parts : ℕ
  le_hundred : parts ≤ 100
deriving DecidableEq

/-- The share of a number, rounded up. -/
def Percent.mulCeil (p : Percent) (n : U32) : U32 :=
  ⟨(n.val * p.parts + 99) / 100, by
    have hle := Nat.mul_le_mul_left n.val p.le_hundred
    have := n.le_max
    omega⟩

inductive DispatchError where
  | badOrigin
  /-- The arguments of the call do not decode. -/
  | undecodable (error : String)
deriving DecidableEq

/-- The pallet's storage, with what it reads of the rest of the runtime. -/
structure State (AccountId : Type) where
  eligibleCount : Option EligibilityValue
  eligibleRatio : Option Percent
  isFakeAuthor : Bool
  events : List EligibilityValue
  potentialAuthors : List AccountId
  /-- The randomness source, by subject. -/
  random : Vector UInt8 12 → H256

variable {AccountId : Type}

abbrev PalletCall (AccountId α : Type) := Call (State AccountId) DispatchError α

namespace State

/-- `EligibleCount::get` -/
def getEligibleCount (s : State AccountId) : EligibilityValue :=
  s.eligibleCount.getD EligibilityValue.default

/-- `EligibleRatio::get`: the default is one half. -/
def getEligibleRatio (s : State AccountId) : Percent := s.eligibleRatio.getD ⟨50, by decide⟩

end State

section Filter

/-- A context identifier for grabbing the randomness: the constant string `filter`, the first two
bytes of the index and the bytes of the seed. -/
def subject (i : ℕ) (seed : U32) : Vector UInt8 12 :=
  ⟨([102, 105, 108, 116, 101, 114] ++ (Bytes.toLe 8 i).take 2 ++ Bytes.toBe 4 seed.val).toArray,
    by simp⟩

/-- The first four bytes of the sample as a number. -/
def sample (random : Vector UInt8 12 → H256) (i : ℕ) (seed : U32) : ℕ :=
  (fromLeBytes ((random (subject i seed)).take 4)).val

/-- The loop of `compute_pseudo_random_subset` with `n` passes to go from pass `i` on. -/
def selectEligible (random : Vector UInt8 12 → H256) (seed : U32) :
    ℕ → ℕ → List AccountId → List AccountId →
      Outcome DispatchError (List AccountId × List AccountId)
  | 0, _, eligible, active => .ok (eligible, active)
  | n + 1, i, eligible, active => do
    let index ← Outcome.rem (sample random i seed) active.length
    let (author, active) ← Outcome.remove active index
    selectEligible random seed n (i + 1) (eligible ++ [author]) active

/-- The eligible and the ineligible ones among the accounts. -/
def computePseudoRandomSubset (s : State AccountId) (active : List AccountId) (seed : U32) :
    Outcome DispatchError (List AccountId × List AccountId) :=
  let numEligible := s.getEligibleCount.get.val
  let numEligible := if numEligible > active.length then active.length else numEligible
  selectEligible s.random seed numEligible 0 [] active

def canAuthor [DecidableEq AccountId] (s : State AccountId) (author : AccountId) (slot : U32) :
    Outcome DispatchError Bool :=
  if s.isFakeAuthor then .ok true
  else do
    let (eligible, _) ← computePseudoRandomSubset s s.potentialAuthors slot
    .ok (eligible.contains author)

end Filter

section Writers

/-- `GenesisConfig::build` -/
def build (eligibleCount : EligibilityValue) (s : State AccountId) : State AccountId :=
  { s with eligibleCount := some eligibleCount }

def setEligible (origin : RawOrigin AccountId) (new : EligibilityValue) :
    PalletCall AccountId Unit := do
  match origin with
  | .root => pure ()
  | _ => Call.err .badOrigin
  Call.modify fun s => { s with eligibleCount := some new }
  Call.modify fun s => { s with events := s.events ++ [new] }

/-- `as u32` on a length. -/
def asU32 (n : ℕ) : U32 := ⟨n % 2 ^ 32, Nat.le_pred_of_lt (Nat.mod_lt n (by decide))⟩

/-- The migration `EligibleRatioToEligiblityCount`. -/
def onRuntimeUpgrade : PalletCall AccountId Unit := do
  let s ← Call.get
  let newValue := s.getEligibleRatio.mulCeil (asU32 s.potentialAuthors.length)
  let newValue := (NonZeroU32.new newValue).getD EligibilityValue.default
  Call.modify fun s => { s with eligibleCount := some newValue }

/-- The hook that sets the fake author key in a block that is run with fake authors. -/
def onInitialize (usingFakeAuthor : Bool) : PalletCall AccountId Unit :=
  if usingFakeAuthor then Call.modify fun s => { s with isFakeAuthor := true } else pure ()

end Writers

section Runs

inductive Op (AccountId : Type) where
  /-- A call with the encoded argument of its extrinsic. -/
  | setEligible (origin : RawOrigin AccountId) (new : List UInt8)
  | onRuntimeUpgrade
  | onInitialize (usingFakeAuthor : Bool)
  /-- The rest of the runtime changes the potential authors or the randomness. -/
  | elsewhere (potentialAuthors : List AccountId) (random : Vector UInt8 12 → H256)

def Op.run : Op AccountId → PalletCall AccountId Unit
  | .setEligible origin new =>
    match NonZeroU32.decode new with
    | .ok new => AuthorSlotFilter.setEligible origin new
    | .error error => Call.err (.undecodable error)
  | .onRuntimeUpgrade => AuthorSlotFilter.onRuntimeUpgrade
  | .onInitialize usingFakeAuthor => AuthorSlotFilter.onInitialize usingFakeAuthor
  | .elsewhere potentialAuthors random => Call.modify fun s =>
    { s with potentialAuthors := potentialAuthors, random := random }

/-- What a genesis can configure: the default, or what its codec or its deserializer accepts. -/
inductive Configured : EligibilityValue → Prop
  | default : Configured EligibilityValue.default
  | scale {input : List UInt8} {n : EligibilityValue} (h : NonZeroU32.decode input = .ok n) :
      Configured n
  | serde {value : Except String U32} {n : EligibilityValue}
      (h : NonZeroU32.deserialize value = .ok n) : Configured n

/-- The pallet as a machine. A chain begins with a genesis of the pallet, or before the count
existed, with a ratio. -/
def machine (AccountId : Type) :
    Machine (State AccountId) (Op AccountId) (Outcome DispatchError Unit) where
  genesis s := s.eligibleCount = none ∨ ∃ n s₀, Configured n ∧ s = build n s₀
  exec s op := op.run s

abbrev RunEvent (AccountId : Type) :=
  Machine.Event (State AccountId) (Op AccountId) (Outcome DispatchError Unit)

abbrev Run (AccountId : Type) := (machine AccountId).Run fun _ _ _ => True

end Runs

end AuthorSlotFilter

end Moonkit
