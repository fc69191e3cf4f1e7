import Moonkit.Base.Machine
import Moonkit.Base.Uint
import Moonkit.Primitives

/-!
# The block builder of the slot-based collator

`collators/slot_based/block_builder_task.rs` and `relay_chain_data_cache.rs`. Before it builds a
block on a relay parent, a collator determines the core to claim: the first one on a new relay
parent, otherwise the one after the selector that the parent block carries, or that the collator
itself claimed last. `BlockBuilder.machine` is a set of collators, each with its own cache, and the
chains of blocks that they build.
-/

namespace Moonkit

namespace BlockBuilder

abbrev U8 := Uint (2 ^ 8 - 1)

abbrev CoreSelector := U8

abbrev CoreIndex := U32

abbrev ParaId := U32

/-- `iter_claims_at_depth_for_para` of a claim queue. -/
abbrev ClaimQueueSnapshot := ℕ → ParaId → List CoreIndex

structure RelayHeader (RelayHash : Type) where
  hash : RelayHash
  stateRoot : H256
deriving DecidableEq

structure CoreInfo where
  selector : CoreSelector

/-- What cumulus reads off the digest of a parachain header. -/
structure CumulusDigest (RelayHash : Type) where
  extractRelayParent : List DigestItem → Option RelayHash
  extractRelayParentStorageRoot : List DigestItem → Option (H256 × U32)
  findCoreInfo : List DigestItem → Option CoreInfo

/-- What the relay client answers at some moment, `none` where it fails. -/
structure RelayClient (RelayHash : Type) where
  claimQueue : RelayHash → Option ClaimQueueSnapshot
  header : RelayHash → Option (RelayHeader RelayHash)
  maxPovSize : RelayHash → Option U32

structure RelayChainData (RelayHash : Type) where
  relayParentHeader : RelayHeader RelayHash
  claimQueue : ClaimQueueSnapshot
  maxPovSize : U32
  /-- The last `CoreSelector` we used. -/
  lastClaimedCoreSelector : Option CoreSelector

/-- The cached data by relay parent, the most recently used first. -/
abbrev RelayChainDataCache (RelayHash : Type) := List (RelayHash × RelayChainData RelayHash)

variable {RelayHash Hash Collator : Type}

abbrev CacheCall (RelayHash α : Type) := Call (RelayChainDataCache RelayHash) Unit α

/-- Fetch fresh data from the relay chain for the given relay parent hash. -/
def updateForRelayParent (relayClient : RelayClient RelayHash) (relayParent : RelayHash) :
    Option (RelayChainData RelayHash) := do
  let claimQueue := (relayClient.claimQueue relayParent).getD fun _ _ => []
  let relayParentHeader ← relayClient.header relayParent
  let maxPovSize ← relayClient.maxPovSize relayParent
  pure ⟨relayParentHeader, claimQueue, maxPovSize, none⟩

variable [DecidableEq RelayHash]

section Cache

/-- The cache after `relayParent` was used: it moves to the front, and the 50 most recently used
ones stay. -/
def touch (relayParent : RelayHash) (data : RelayChainData RelayHash)
    (cache : RelayChainDataCache RelayHash) : RelayChainDataCache RelayHash :=
  ((relayParent, data) :: cache.filter (·.1 ≠ relayParent)).take 50

def getMutRelayChainData (relayClient : RelayClient RelayHash) (relayParent : RelayHash) :
    CacheCall RelayHash (RelayChainData RelayHash) := fun cache =>
  match cache.lookup relayParent with
  | some data => (.ok data, touch relayParent data cache)
  | none =>
    match updateForRelayParent relayClient relayParent with
    | some data => (.ok data, touch relayParent data cache)
    | none => (.err (), cache)

end Cache

section DetermineCore

structure Core where
  selector : CoreSelector
  claimQueueOffset : U8
  coreIndex : CoreIndex
  /-- A `u16` in the source. -/
  numberOfCores : ℕ

/-- The parachain and the offset of its relay parents. -/
structure Para where
  paraId : ParaId
  relayParentOffset : U32

/-- `as u8` -/
def asU8 (n : ℕ) : U8 := ⟨n % 2 ^ 8, Nat.le_sub_one_of_lt (Nat.mod_lt _ (by decide))⟩

def isNewRelayParent (D : CumulusDigest RelayHash) (relayParent : RelayHeader RelayHash)
    (paraParent : Header Hash) : Outcome Unit Bool :=
  if paraParent.number = 0 then .ok true
  else
    match D.extractRelayParent paraParent.digest with
    | some lastRelayParent => .ok (lastRelayParent ≠ relayParent.hash)
    | none => do
      let root ← Outcome.okOr (D.extractRelayParentStorageRoot paraParent.digest) ()
      .ok (root.1 ≠ relayParent.stateRoot)

/-- The core with this selector, if there is one. -/
def coreAt (P : Para) (coresAtOffset : List CoreIndex) (selector : ℕ) : Option Core :=
  (coresAtOffset[selector]?).map fun coreIndex =>
    ⟨asU8 selector, asU8 P.relayParentOffset.val, coreIndex, coresAtOffset.length % 2 ^ 16⟩

def determineCore (D : CumulusDigest RelayHash) (P : Para) (relayClient : RelayClient RelayHash)
    (relayParent : RelayHeader RelayHash) (paraParent : Header Hash) :
    CacheCall RelayHash (Option Core) := do
  let data ← getMutRelayChainData relayClient relayParent.hash
  let coresAtOffset := data.claimQueue P.relayParentOffset.val P.paraId
  let isNew ← Call.lift (isNewRelayParent D relayParent paraParent)
  -- If we are using a new relay parent, we can start over from the start.
  if isNew then pure (coreAt P coresAtOffset 0)
  else
    match D.findCoreInfo paraParent.digest with
    | some coreInfo => pure (coreAt P coresAtOffset (coreInfo.selector.val + 1))
    | none => do
      let data ← getMutRelayChainData relayClient relayParent.hash
      let selector := (data.lastClaimedCoreSelector.elim 0 Uint.val) + 1
      pure (coreAt P coresAtOffset selector)

/-- The pass of the builder loop from `determine_core` on. `builds` says whether a block is built:
whether the slot is claimed and the block can be built and imported. -/
def buildOn (D : CumulusDigest RelayHash) (P : Para) (relayClient : RelayClient RelayHash)
    (relayParent : RelayHeader RelayHash) (paraParent : Header Hash) (builds : Bool) :
    CacheCall RelayHash (Option Core) := do
  match ← determineCore D P relayClient relayParent paraParent with
  | none => pure none
  | some core =>
    let data ← getMutRelayChainData relayClient relayParent.hash
    if builds then
      Call.modify (touch relayParent.hash
        { data with lastClaimedCoreSelector := some core.selector })
    else pure ()
    pure (some core)

end DetermineCore

section Collators

structure Block (RelayHash Hash : Type) where
  header : Header Hash
  relayParent : RelayHeader RelayHash
  core : Core

/-- The caches of the collators and all chains of blocks built so far, newest block first. -/
structure State (RelayHash Hash Collator : Type) where
  caches : Collator → RelayChainDataCache RelayHash
  chains : List (List (Block RelayHash Hash))

inductive Op (RelayHash Hash Collator : Type) where
  /-- A collator uses its cache for something else. -/
  | visit (collator : Collator) (relayClient : RelayClient RelayHash) (relayParent : RelayHash)
  /-- A collator tries to build on a chain. `header` is that of the block if one is built. -/
  | attempt (collator : Collator) (relayClient : RelayClient RelayHash)
      (chain : List (Block RelayHash Hash)) (relayParent : RelayHeader RelayHash)
      (header : Option (Header Hash))

variable [DecidableEq Collator] (D : CumulusDigest RelayHash) (P : Para) (root : Header Hash)

/-- The header to build on; the chains grow from `root`. -/
def tip (chain : List (Block RelayHash Hash)) : Header Hash :=
  (chain.head?.map Block.header).getD root

def State.setCache (s : State RelayHash Hash Collator) (collator : Collator)
    (cache : RelayChainDataCache RelayHash) : State RelayHash Hash Collator :=
  { s with caches := Function.update s.caches collator cache }

def Op.run (s : State RelayHash Hash Collator) :
    Op RelayHash Hash Collator → Outcome Unit (Option Core) × State RelayHash Hash Collator
  | .visit collator relayClient relayParent =>
    let result := getMutRelayChainData relayClient relayParent (s.caches collator)
    (.ok none, s.setCache collator result.2)
  | .attempt collator relayClient chain relayParent header =>
    let result := buildOn D P relayClient relayParent (tip root chain) header.isSome
      (s.caches collator)
    let s := s.setCache collator result.2
    match result.1, header with
    | .ok (some core), some header =>
      (result.1, { s with chains := (⟨header, relayParent, core⟩ :: chain) :: s.chains })
    | _, _ => (result.1, s)

/-- The collators as a machine; they begin with empty caches and no block. -/
def machine : Machine (State RelayHash Hash Collator) (Op RelayHash Hash Collator)
    (Outcome Unit (Option Core)) where
  genesis s := s = ⟨fun _ => [], [[]]⟩
  exec s op := op.run D P root s

abbrev RunEvent (RelayHash Hash Collator : Type) :=
  Machine.Event (State RelayHash Hash Collator) (Op RelayHash Hash Collator)
    (Outcome Unit (Option Core))

end Collators

end BlockBuilder

end Moonkit
