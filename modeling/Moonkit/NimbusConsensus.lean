import Moonkit.Base.Uint
import Moonkit.Primitives

/-!
# The nimbus client

`client/consensus/nimbus-consensus/src/{import_queue,collator,collators}.rs`: how a peer verifies a
block it receives, and how a collator builds, seals and imports one. A header's hash, the
signature scheme, the keystore, the proposer and the inherent checks are parameters.
-/

namespace Moonkit

namespace NimbusConsensus

variable {Hash Body : Type}

inductive StorageChanges where
  | changes
  | imported
deriving DecidableEq

inductive StateAction where
  | applyChanges (storageChanges : StorageChanges)
  | execute
  | executeIfPossible
  | skip
deriving DecidableEq

def StateAction.skipExecutionChecks : StateAction → Bool
  | skip => true
  | _ => false

inductive ForkChoiceStrategy where
  | longestChain
  | custom (best : Bool)
deriving DecidableEq

inductive BlockOrigin where
  | genesis
  | networkInitialSync
  | networkBroadcast
  | consensusBroadcast
  | own
  | file
deriving DecidableEq

structure BlockImportParams (Hash Body : Type) where
  origin : BlockOrigin
  header : Header Hash
  postDigests : List DigestItem
  body : Option Body
  stateAction : StateAction
  forkChoice : Option ForkChoiceStrategy
  postHash : Option Hash

namespace BlockImportParams

def new (origin : BlockOrigin) (header : Header Hash) : BlockImportParams Hash Body where
  origin := origin
  header := header
  postDigests := []
  body := none
  stateAction := .execute
  forkChoice := none
  postHash := none

def withState (params : BlockImportParams Hash Body) : Bool :=
  params.stateAction = .applyChanges .imported

def postHeader (params : BlockImportParams Hash Body) : Header Hash :=
  params.postDigests.foldl Header.pushDigest params.header

end BlockImportParams

section Verifier

variable (hash : Header Hash → Hash) (verify : NimbusId → Hash → NimbusSignature → Bool)

/-- The author bytes that the verifier takes from a digest item. -/
def verifierClaim : DigestItem → Option (List UInt8)
  | .consensus id authorId => if id = nimbusEngineId then some authorId else none
  | .preRuntime id authorId => if id = nimbusEngineId then some authorId else none
  | _ => none

/-- The seal part of `Verifier::verify`. -/
def verifySeal (header : Header Hash) : Outcome String (Unsealed Hash) := do
  let (sealItem, header) ← Outcome.okOr header.popDigest
    "Block should have at least one digest on it"
  let signature ← Outcome.okOr sealItem.asNimbusSeal "HeaderUnsealed"
  let claimedAuthor ← Outcome.okOr (header.digest.findSome? verifierClaim)
    "Expected one consensus or pre-runtime digest that contains author id bytes"
  let author ← Outcome.okOr (Bytes.fromSlice 32 claimedAuthor) "Invalid Nimbus ID (wrong length)"
  if verify author (hash header) signature then pure ⟨header, sealItem, signature, author⟩
  else .err "Block signature invalid"

abbrev InherentIdentifier := Vector UInt8 8

structure CheckInherentsResult where
  okay : Bool
  errors : List (InherentIdentifier × List UInt8)

/-- What the verifier uses to check the inherents of a block. -/
structure InherentChecks (Hash Body : Type) where
  Providers : Type
  InherentData : Type
  createInherentDataProviders : Hash → Except String Providers
  createInherentData : Providers → Except String InherentData
  checkInherents : Hash → Header Hash → Body → InherentData → Except String CheckInherentsResult
  tryHandleError : Providers → InherentIdentifier → List UInt8 → Option (Except String Unit)
  identifierText : InherentIdentifier → String

variable (inherents : InherentChecks Hash Body)

/-- Hands each inherent error to the providers; the first they do not handle ends it. -/
def handleInherentErrors (providers : inherents.Providers) :
    List (InherentIdentifier × List UInt8) → Outcome String Unit
  | [] => pure ()
  | (i, e) :: errors => do
    match inherents.tryHandleError providers i e with
    | some r => Outcome.ofExcept r
    | none =>
      Outcome.err ("Unhandled inherent error from `" ++ inherents.identifierText i ++ "`.")
    handleInherentErrors providers errors

def verifyInherents (header : Header Hash) (body : Body) : Outcome String Unit := do
  let providers ← Outcome.ofExcept (inherents.createInherentDataProviders header.parentHash)
  let inherentData ← Outcome.ofExcept (inherents.createInherentData providers)
  let res ← Outcome.ofExcept
    (inherents.checkInherents header.parentHash header body inherentData)
  if res.okay then pure () else handleInherentErrors inherents providers res.errors

/-- `Verifier::verify` -/
def verifyBlock (params : BlockImportParams Hash Body) :
    Outcome String (BlockImportParams Hash Body) :=
  if params.withState || params.stateAction.skipExecutionChecks then
    pure { params with forkChoice := some (.custom params.withState) }
  else do
    let unsealed ← verifySeal hash verify params.header
    match params.body with
    | some body => verifyInherents inherents unsealed.header body
    | none => pure ()
    pure { params with
      header := unsealed.header
      postDigests := params.postDigests ++ [unsealed.sealItem]
      forkChoice := some .longestChain }

end Verifier

section Collator

variable (hash : Header Hash → Hash)

structure SlotClaim where
  authorId : NimbusId
  timestamp : U64

structure Block (Hash Body : Type) where
  header : Header Hash
  body : Body

/-- What a collator builds blocks with. `Inputs` is what the proposer gets besides the parent and
the digest. -/
structure Collator (Hash Body Inputs : Type) where
  propose : Header Hash → Inputs → List DigestItem → Except String (Block Hash Body)
  /-- The raw signature of a hash with the key of a public key, if the keystore has it. -/
  signWith : List UInt8 → Hash → Except String (Option (List UInt8))
  importBlock : BlockImportParams Hash Body → Except String Unit

variable {Inputs : Type} (collator : Collator Hash Body Inputs)

def sealHeader (header : Header Hash) (publicPair : List UInt8) : Outcome String DigestItem := do
  let preHash := hash header
  let signed ← Outcome.expect (collator.signWith publicPair preHash).toOption
    "Keystore should be able to sign"
  let rawSig ← Outcome.expect signed "We already checked that the key was present"
  let signature ← Outcome.expect (Bytes.fromSlice 64 rawSig)
    "signature bytes produced by keystore should be right length"
  pure (.nimbusSeal signature)

/-- `seal`: the params that import the block, with the seal as their post digest. -/
def sealBlock (preSealed : Block Hash Body) (authorPub : NimbusId) :
    Outcome String (BlockImportParams Hash Body) := do
  let sealDigest ← sealHeader hash collator preSealed.header (Bytes.encode authorPub)
  pure { (BlockImportParams.new .own preSealed.header : BlockImportParams Hash Body) with
    postDigests := [sealDigest]
    body := some preSealed.body
    stateAction := .applyChanges .changes
    forkChoice := some .longestChain }

def preDigests (slotClaim : SlotClaim) (additionalPreDigest : Option (List DigestItem)) :
    List DigestItem :=
  [.nimbusPreDigest slotClaim.authorId] ++ additionalPreDigest.getD []

def buildBlockAndImport (parentHeader : Header Hash) (slotClaim : SlotClaim)
    (additionalPreDigest : Option (List DigestItem)) (inputs : Inputs) :
    Outcome String (Option (Block Hash Body)) := do
  let proposal ← Outcome.ofExcept
    (collator.propose parentHeader inputs (preDigests slotClaim additionalPreDigest))
  let sealedImportable ← sealBlock hash collator proposal slotClaim.authorId
  let body ← Outcome.expect sealedImportable.body
    "body always created with this `propose` fn; qed"
  let block : Block Hash Body := ⟨sealedImportable.postHeader, body⟩
  Outcome.ofExcept (collator.importBlock sealedImportable)
  pure (some block)

end Collator

end NimbusConsensus

end Moonkit
