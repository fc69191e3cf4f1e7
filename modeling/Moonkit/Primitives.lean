import Mathlib.Data.Finmap
import Moonkit.Base.Bytes
import Moonkit.Base.Effect

/-!
# Primitives of the runtime and of nimbus

What the pallets and the client share: addresses, origins, storage maps, digest items, and the
digest items nimbus adds to a header (`primitives/nimbus-primitives/src/digests.rs`).
-/

namespace Moonkit

abbrev H160 := Vector UInt8 20

abbrev H256 := Vector UInt8 32

/-- A storage map: a finite map that forgets the order of its entries. -/
abbrev StorageMap (K V : Type) := Finmap fun _ : K => V

inductive RawOrigin (AccountId : Type) where
  | root
  | signed (who : AccountId)
  | none
deriving DecidableEq

/-- The handler that suspends and resumes XCM execution (`primitives/xcm/src/lib.rs`), on the part
`X` of the runtime that it writes. -/
structure PauseXcmExecution (X DispatchError : Type) where
  suspendXcmExecution : Call X DispatchError Unit
  resumeXcmExecution : Call X DispatchError Unit

abbrev ConsensusEngineId := Vector UInt8 4

/-- `*b"nmbs"` -/
def nimbusEngineId : ConsensusEngineId := #v[110, 109, 98, 115]

/-- `*b"rand"` -/
def vrfEngineId : ConsensusEngineId := #v[114, 97, 110, 100]

/-- A nimbus author identifier, a public key. -/
abbrev NimbusId := Vector UInt8 32

abbrev NimbusSignature := Vector UInt8 64

inductive DigestItem where
  | preRuntime (id : ConsensusEngineId) (data : List UInt8)
  | consensus (id : ConsensusEngineId) (data : List UInt8)
  | sealed (id : ConsensusEngineId) (data : List UInt8)
  | other (data : List UInt8)
  | runtimeEnvironmentUpdated
deriving DecidableEq

namespace DigestItem

def asPreRuntime : DigestItem → Option (ConsensusEngineId × List UInt8)
  | preRuntime id data => some (id, data)
  | _ => none

def asSeal : DigestItem → Option (ConsensusEngineId × List UInt8)
  | sealed id data => some (id, data)
  | _ => none

/-- The array of `n` bytes that a seal of this engine is. As all of the seal is decoded, a longer
one is refused. -/
def sealTryTo (n : ℕ) (item : DigestItem) (id : ConsensusEngineId) : Option (Vector UInt8 n) :=
  (item.asSeal.filter (·.1 = id)).bind fun d => Bytes.fromSlice n d.2

def nimbusPreDigest (author : NimbusId) : DigestItem :=
  preRuntime nimbusEngineId (Bytes.encode author)

def nimbusSeal (signature : NimbusSignature) : DigestItem :=
  sealed nimbusEngineId (Bytes.encode signature)

def asNimbusSeal (item : DigestItem) : Option NimbusSignature :=
  item.sealTryTo 64 nimbusEngineId

@[simp] theorem asNimbusSeal_nimbusSeal (signature : NimbusSignature) :
    (nimbusSeal signature).asNimbusSeal = some signature := by
  simp [asNimbusSeal, nimbusSeal, sealTryTo, asSeal, Option.filter]

end DigestItem

structure Header (Hash : Type) where
  parentHash : Hash
  number : ℕ
  stateRoot : Hash
  extrinsicsRoot : Hash
  digest : List DigestItem
deriving DecidableEq

namespace Header

variable {Hash : Type} {header header' : Header Hash} {item : DigestItem}

/-- `header.digest_mut().push(item)` -/
def pushDigest (header : Header Hash) (item : DigestItem) : Header Hash :=
  { header with digest := header.digest ++ [item] }

/-- `header.digest_mut().pop()`: the last item, and the header without it. -/
def popDigest (header : Header Hash) : Option (DigestItem × Header Hash) :=
  header.digest.getLast?.map fun item => (item, { header with digest := header.digest.dropLast })

theorem popDigest_eq_some :
    header.popDigest = some (item, header') ↔ header = header'.pushDigest item := by
  obtain ⟨parentHash, number, stateRoot, extrinsicsRoot, digest⟩ := header
  obtain ⟨parentHash', number', stateRoot', extrinsicsRoot', digest'⟩ := header'
  simp only [popDigest, pushDigest, Option.map_eq_some_iff, Prod.mk.injEq, mk.injEq]
  constructor
  · rintro ⟨last, hlast, rfl, rfl, rfl, rfl, rfl, rfl⟩
    obtain ⟨init, rfl⟩ := List.getLast?_eq_some_iff.1 hlast
    simp
  · rintro ⟨rfl, rfl, rfl, rfl, rfl⟩
    exact ⟨item, by simp⟩

def preRuntimeDigests (header : Header Hash) : List (ConsensusEngineId × List UInt8) :=
  header.digest.filterMap DigestItem.asPreRuntime

end Header

/-- What a seal leaves when it is stripped, and what it was checked against. -/
structure Unsealed (Hash : Type) where
  header : Header Hash
  sealItem : DigestItem
  signature : NimbusSignature
  author : NimbusId
deriving DecidableEq

end Moonkit
