import Moonkit.AuthorInherent
import Moonkit.NimbusConsensus

/-!
# The key a node authors with

`client/consensus/nimbus-consensus/src/{lib,manual_seal}.rs`: which key of its keystore a node
claims a slot with, and how manual seal makes the digest of a block and seals it. The keystore and
the runtime are parameters.
-/

namespace Moonkit

namespace NimbusConsensus

variable {Hash Body Inputs : Type}

/-- What the runtime of a block answers. -/
structure ParaClient (Hash RuntimeVersion : Type) where
  version : Hash → Except String RuntimeVersion
  canAuthor : Hash → NimbusId → U32 → Header Hash → Except String Bool

/-- The nimbus keys of a keystore. -/
abbrev KeystoreKeys := Except String (List (List UInt8))

def firstAvailableKey (keystore : KeystoreKeys) : Option (List UInt8) :=
  match keystore with
  | .ok availableKeys => availableKeys.head?
  | .error _ => none

section Client

variable {RuntimeVersion : Type} (hash : Header Hash → Hash)
  (paraClient : ParaClient Hash RuntimeVersion)

/-- What `first_eligible_key` asks of a key. -/
def isEligible (parent : Header Hash) (slotNumber : U32) (key : List UInt8) : Bool :=
  match Bytes.fromSlice 32 key with
  | some nimbusId =>
    (paraClient.canAuthor (hash parent) nimbusId slotNumber parent).toOption.getD false
  | none => false

def firstEligibleKey (keystore : KeystoreKeys) (parent : Header Hash) (slotNumber : U32) :
    Option (List UInt8) := do
  let availableKeys ← keystore.toOption
  availableKeys.find? (isEligible hash paraClient parent slotNumber)

/-- The version of the runtime has changed in the parent block. -/
def runtimeUpgraded [DecidableEq RuntimeVersion] (parent : Header Hash) : Except String Bool :=
  if 0 < parent.number then do
    let previousRuntimeVersion ← paraClient.version parent.parentHash
    let runtimeVersion ← paraClient.version (hash parent)
    pure (decide (previousRuntimeVersion ≠ runtimeVersion))
  else pure false

def claimSlot [DecidableEq RuntimeVersion] (keystore : KeystoreKeys) (parent : Header Hash)
    (relayParentNumber : U32) (skipPrediction : Bool) : Except String (Option NimbusId) := do
  let runtimeUpgraded ← runtimeUpgraded hash paraClient parent
  let maybeKey :=
    if skipPrediction || runtimeUpgraded then firstAvailableKey keystore
    else firstEligibleKey hash paraClient keystore parent relayParentNumber
  match maybeKey with
  | some key =>
    match Bytes.fromSlice 32 key with
    | some nimbusId => pure (some nimbusId)
    | none => .error "invalid nimbus id (wrong length)"
  | none => pure none

/-- `create_digest` of manual seal. `inherents` is the relay parent number in the inherent of the
parachain system, if it decodes and is there. -/
def createDigest (keystore : KeystoreKeys) (provideDigests : NimbusId → Hash → List DigestItem)
    (parent : Header Hash) (inherents : Except String (Option U32)) :
    Outcome String (List DigestItem) := do
  let data ← Outcome.expect inherents.toOption "Parachain inherent should decode correctly"
  let slotNumber ← Outcome.expect data
    "Parachain inherent should be present because we are mocking it"
  match firstEligibleKey hash paraClient keystore parent slotNumber with
  | some key =>
    let nimbusId ← Outcome.okOr (Bytes.fromSlice 32 key) "invalid nimbus id (wrong length)"
    pure ([.nimbusPreDigest nimbusId] ++ provideDigests nimbusId (hash parent))
  | none => .err "no nimbus keys available to manual seal"

/-- `append_block_import` of manual seal: the params with the seal as their last post digest. -/
def appendBlockImport (collator : Collator Hash Body Inputs)
    (params : BlockImportParams Hash Body) : Outcome String (BlockImportParams Hash Body) := do
  let claimedAuthor ← Outcome.expect
    (params.header.digest.findSome? AuthorInherent.executorClaim)
    "Expected one pre-runtime digest that contains author id bytes"
  let nimbusPublic ← Outcome.okOr (Bytes.fromSlice 32 claimedAuthor)
    "invalid nimbus id (wrong length)"
  let sigDigest ← sealHeader hash collator params.header (Bytes.encode nimbusPublic)
  pure { params with postDigests := params.postDigests ++ [sigDigest] }

end Client

end NimbusConsensus

end Moonkit
