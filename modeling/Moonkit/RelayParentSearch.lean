import Moonkit.BlockBuilder

/-!
# The search of a relay parent at an offset

`offset_relay_parent_find_descendants` of `collators/slot_based/block_builder_task.rs`, and the
`RelayParentData` of `collators.rs`. A collator builds on the relay block that is a fixed number of
blocks behind the best one, and puts the headers in between into the inherent data.
-/

namespace Moonkit

namespace BlockBuilder

/-- Holds a relay parent and its descendants. -/
structure RelayParentData (RelayHash : Type) where
  relayParent : RelayHeader RelayHash
  /-- Ordered collection of descendant block headers, from oldest to newest. -/
  descendants : List (RelayHeader RelayHash)
deriving DecidableEq

namespace RelayParentData

variable {RelayHash : Type}

def new (relayParent : RelayHeader RelayHash) : RelayParentData RelayHash := ⟨relayParent, []⟩

def newWithDescendants (relayParent : RelayHeader RelayHash)
    (descendants : List (RelayHeader RelayHash)) : RelayParentData RelayHash :=
  ⟨relayParent, descendants⟩

def intoInherentDescendantList (data : RelayParentData RelayHash) : List (RelayHeader RelayHash) :=
  if data.descendants.isEmpty then [] else [data.relayParent] ++ data.descendants

end RelayParentData

/-- What the search reads of a relay header. -/
structure RelayHeaderReader (RelayHash : Type) where
  parentHash : RelayHeader RelayHash → RelayHash
  containsEpochChange : RelayHeader RelayHash → Bool

variable {RelayHash : Type} [DecidableEq RelayHash] (V : RelayHeaderReader RelayHash)
  (relayClient : RelayClient RelayHash)

section Search

/-- The loop: walk back from `relayHeader` until there are as many required ancestors as the offset.
`none` at an epoch change. -/
def requireAncestors (relayParentOffset : U32) (relayHeader : RelayHeader RelayHash)
    (requiredAncestors : List (RelayHeader RelayHash)) :
    CacheCall RelayHash (Option (RelayHeader RelayHash × List (RelayHeader RelayHash))) :=
  if _h : requiredAncestors.length < relayParentOffset.val then do
    let data ← getMutRelayChainData relayClient (V.parentHash relayHeader)
    let nextHeader := data.relayParentHeader
    if V.containsEpochChange nextHeader then pure none
    else requireAncestors relayParentOffset nextHeader (nextHeader :: requiredAncestors)
  else pure (some (relayHeader, requiredAncestors))
termination_by relayParentOffset.val - requiredAncestors.length
decreasing_by simp only [List.length_cons]; omega

def offsetRelayParentFindDescendants (relayBestBlock : RelayHash) (relayParentOffset : U32) :
    CacheCall RelayHash (Option (RelayParentData RelayHash)) := do
  let data ← getMutRelayChainData relayClient relayBestBlock
  let relayHeader := data.relayParentHeader
  if relayParentOffset.val = 0 then pure (some (.new relayHeader))
  else if V.containsEpochChange relayHeader then pure none
  else
    match ← requireAncestors V relayClient relayParentOffset relayHeader [relayHeader] with
    | none => pure none
    | some (relayHeader, requiredAncestors) => do
      let data ← getMutRelayChainData relayClient (V.parentHash relayHeader)
      pure (some (.newWithDescendants data.relayParentHeader requiredAncestors))

end Search

end BlockBuilder

end Moonkit
