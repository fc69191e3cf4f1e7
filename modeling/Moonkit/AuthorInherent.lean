import Moonkit.Base.Machine
import Moonkit.Base.Uint
import Moonkit.Primitives

/-!
# The author-inherent pallet and its block executor

`pallets/author-inherent/src/{lib,exec}.rs`. The executor strips the seal of a block and checks
it; the pallet stores the author it finds in the pre-runtime digests, lets the inherent check that
the author is eligible, and refuses to finish a block without that check.
`AuthorInherent.machine` executes blocks: their beginning, their extrinsics in any order, and
their end.
-/

namespace Moonkit

namespace AuthorInherent

variable {Hash AuthorId AccountId : Type}

section Executor

variable (hash : Header Hash → Hash) (verify : NimbusId → Hash → NimbusSignature → Bool)

/-- The author bytes that the executor takes from a digest item. -/
def executorClaim : DigestItem → Option (List UInt8)
  | .preRuntime id authorId => if id = nimbusEngineId then some authorId else none
  | _ => none

/-- `BlockExecutor::verify_and_remove_seal` -/
def verifyAndRemoveSeal (header : Header Hash) : Outcome String (Unsealed Hash) := do
  let (sealItem, header) ← Outcome.expect header.popDigest
    "Seal digest is present and is last item"
  let signature ← Outcome.expect sealItem.asNimbusSeal "HeaderUnsealed"
  let claimedAuthor ← Outcome.expect (header.digest.findSome? executorClaim)
    "Expected pre-runtime digest that contains author id bytes"
  let author ← Outcome.expect (Bytes.fromSlice 32 claimedAuthor)
    "Expected claimed author to be a valid NimbusId."
  if verify author (hash header) signature then pure ⟨header, sealItem, signature, author⟩
  else .panic "Block signature invalid"

end Executor

section Pallet

structure Env (AuthorId : Type) where
  lookupAccount : NimbusId → Option AuthorId
  canAuthor : AuthorId → Uint (2 ^ 32 - 1) → Bool
  slot : Uint (2 ^ 32 - 1)

/-- The pallet's storage, with the digest of the block and the rest of the runtime. -/
structure State (AuthorId : Type) where
  author : Option AuthorId
  inherentIncluded : Bool
  digest : List DigestItem
  env : Env AuthorId

inductive DispatchError where
  | badOrigin
deriving DecidableEq

abbrev PalletCall (AuthorId α : Type) := Call (State AuthorId) DispatchError α

def findAuthor (env : Env AuthorId) :
    List (ConsensusEngineId × List UInt8) → PalletCall AuthorId (Option AuthorId)
  | [] => pure none
  | (id, data) :: digests =>
    if id = nimbusEngineId then do
      let authorId ← Call.expect (Bytes.decode 32 data)
        "NimbusId encoded in preruntime digest must be valid"
      let authorAccount ← Call.expect (env.lookupAccount authorId)
        "No Account Mapped to this NimbusId"
      pure (some authorAccount)
    else findAuthor env digests

def onInitialize : PalletCall AuthorId Unit := do
  let s ← Call.get
  match ← findAuthor s.env (s.digest.filterMap DigestItem.asPreRuntime) with
  | some author => Call.modify fun s => { s with author := some author }
  | none => pure ()

def onFinalize : PalletCall AuthorId Unit := do
  let s ← Call.get
  Call.modify fun s => { s with inherentIncluded := false }
  Call.assert s.inherentIncluded
    "Block invalid, missing inherent `kick_off_authorship_validation`"

def getAuthor : PalletCall AuthorId AuthorId := do
  let s ← Call.get
  Call.expect s.author "Block author not inserted into Author Inherent Pallet"

def kickOffAuthorshipValidation [DecidableEq AccountId] (origin : RawOrigin AccountId) :
    PalletCall AuthorId Unit := do
  Call.ensure (origin = .none) .badOrigin
  let s ← Call.get
  let newSlot := s.env.slot
  let author ← getAuthor
  Call.assert (s.env.canAuthor author newSlot) "Block invalid, supplied author is not eligible."
  Call.modify fun s => { s with inherentIncluded := true }

/-- `can_author` for a key instead of an account. -/
def canAuthor (env : Env AuthorId) (author : NimbusId) (slot : Uint (2 ^ 32 - 1)) : Bool :=
  match env.lookupAccount author with
  | some account => env.canAuthor account slot
  | none => false

end Pallet

section Blocks

inductive Op (Hash AuthorId AccountId : Type) where
  /-- The executor strips the seal, and `on_initialize` runs on the pre-runtime digests. -/
  | beginBlock (header : Header Hash)
  | kickOffAuthorshipValidation (origin : RawOrigin AccountId)
  /-- Any other extrinsic or hook changes what the pallet reads. -/
  | elsewhere (env : Env AuthorId)
  | endBlock

variable (hash : Header Hash → Hash) (verify : NimbusId → Hash → NimbusSignature → Bool)

def beginBlock (header : Header Hash) : PalletCall AuthorId Unit := fun s =>
  match verifyAndRemoveSeal hash verify header with
  | .ok unsealed =>
    onInitialize { s with
      digest := unsealed.header.digest.filter fun item => item.asPreRuntime.isSome }
  | .err e => (.panic e, s)
  | .panic m => (.panic m, s)

def Op.run [DecidableEq AccountId] : Op Hash AuthorId AccountId → PalletCall AuthorId Unit
  | .beginBlock header => AuthorInherent.beginBlock hash verify header
  | .kickOffAuthorshipValidation origin => AuthorInherent.kickOffAuthorshipValidation origin
  | .elsewhere env => Call.modify fun s => { s with env := env }
  | .endBlock => onFinalize

/-- The pallet as a machine, from a genesis without an included inherent. -/
def machine (AuthorId AccountId : Type) [DecidableEq AccountId] :
    Machine (State AuthorId) (Op Hash AuthorId AccountId) (Outcome DispatchError Unit) where
  genesis s := s.inherentIncluded = false
  exec s op := op.run hash verify s

abbrev RunEvent (Hash AuthorId AccountId : Type) :=
  Machine.Event (State AuthorId) (Op Hash AuthorId AccountId) (Outcome DispatchError Unit)

/-- The current block: the event that began it and those since, newest first. -/
def currentBlock : List (RunEvent Hash AuthorId AccountId) →
    Option (RunEvent Hash AuthorId AccountId × List (RunEvent Hash AuthorId AccountId))
  | [] => none
  | e :: h =>
    match e.op with
    | .beginBlock _ => some (e, [])
    | .endBlock => none
    | _ => (currentBlock h).map fun block => (block.1, e :: block.2)

/-- The account that a successful call of the inherent passed to `can_author`: the one that
`get` returned. -/
def askedAuthor (e : RunEvent Hash AuthorId AccountId) : Option AuthorId :=
  match e.op, e.answer with
  | .kickOffAuthorshipValidation _, .ok _ => e.before.author
  | _, _ => none

/-- The operation does not panic, so the block it is in can go on. -/
def Completes [DecidableEq AccountId] (s : State AuthorId) (op : Op Hash AuthorId AccountId) :
    Prop :=
  (op.run hash verify s).1.isPanic = false

instance [DecidableEq AccountId] (s : State AuthorId) (op : Op Hash AuthorId AccountId) :
    Decidable (Completes hash verify s op) :=
  inferInstanceAs (Decidable (_ = _))

/-- Blocks follow each other: one begins when there is none, and the rest happens in one. -/
def InOrder (h : List (RunEvent Hash AuthorId AccountId)) (op : Op Hash AuthorId AccountId) :
    Prop :=
  match op with
  | .beginBlock _ => (currentBlock h).isNone
  | _ => (currentBlock h).isSome

instance (h : List (RunEvent Hash AuthorId AccountId)) (op : Op Hash AuthorId AccountId) :
    Decidable (InOrder h op) := by
  unfold InOrder
  split <;> infer_instance

end Blocks

end AuthorInherent

end Moonkit
