import Moonkit.AuthorInherent
import Moonkit.AuthorSlotFilter

/-!
# The runtime of the template

`template/runtime/src/{lib,pallet_account_set}.rs`, on the part that decides who may author a
block. The account set maps nimbus keys to accounts, the author filter chooses among the accounts
with the randomness of the block, and the author inherent asks the filter about the author of the
block in the slot of the relay parent. `nimbusApi` predicts this for the block to come.
-/

namespace Moonkit

namespace AccountSet

variable {AccountId : Type}

structure State (AccountId : Type) where
  storedAccounts : List AccountId
  mapping : StorageMap NimbusId AccountId

def State.empty : State AccountId := ⟨[], ∅⟩

/-- One pass of the loop of `GenesisConfig::build`. -/
def State.associate (s : State AccountId) (association : AccountId × NimbusId) :
    State AccountId where
  mapping := s.mapping.insert association.2 association.1
  storedAccounts := s.storedAccounts ++ [association.1]

/-- `GenesisConfig::build` -/
def build (mapping : List (AccountId × NimbusId)) (s : State AccountId) : State AccountId :=
  mapping.foldl State.associate s

def canAuthor [DecidableEq AccountId] (s : State AccountId) (author : AccountId) (_slot : U32) :
    Bool :=
  s.storedAccounts.contains author

def lookupAccount (s : State AccountId) (author : NimbusId) : Option AccountId :=
  s.mapping.lookup author

end AccountSet

namespace Template

variable {Hash AccountId Material : Type}

structure System (Hash : Type) where
  number : ℕ
  parentHash : Hash
  digest : List DigestItem

/-- The randomness of a block: a hook that updates what is stored, and the sample of a subject.
Both may read the number of the block and the hash of its parent. -/
structure RandomnessSource (Hash Material : Type) where
  onInitialize : ℕ → Hash → Material → Material
  random : ℕ → Hash → Material → Vector UInt8 12 → H256

structure Runtime (Hash AccountId Material : Type) where
  system : System Hash
  material : Material
  /-- The number of the relay parent, as `RelaychainDataProvider` gives it. -/
  relayParentNumber : U32
  author : Option AccountId
  inherentIncluded : Bool
  eligibleCount : Option AuthorSlotFilter.EligibilityValue
  eligibleRatio : Option AuthorSlotFilter.Percent
  isFakeAuthor : Bool
  filterEvents : List AuthorSlotFilter.EligibilityValue
  accountSet : AccountSet.State AccountId

inductive DispatchError where
  | authorInherent (error : AuthorInherent.DispatchError)
  | authorFilter (error : AuthorSlotFilter.DispatchError)
deriving DecidableEq

abbrev RuntimeCall (Hash AccountId Material α : Type) :=
  Call (Runtime Hash AccountId Material) DispatchError α

section Pallets

variable (source : RandomnessSource Hash Material)

namespace Runtime

def filter (r : Runtime Hash AccountId Material) : AuthorSlotFilter.State AccountId where
  eligibleCount := r.eligibleCount
  eligibleRatio := r.eligibleRatio
  isFakeAuthor := r.isFakeAuthor
  events := r.filterEvents
  potentialAuthors := r.accountSet.storedAccounts
  random := source.random r.system.number r.system.parentHash r.material

def setFilter (s : AuthorSlotFilter.State AccountId) (r : Runtime Hash AccountId Material) :
    Runtime Hash AccountId Material :=
  { r with
    eligibleCount := s.eligibleCount
    eligibleRatio := s.eligibleRatio
    isFakeAuthor := s.isFakeAuthor
    filterEvents := s.events }

variable [DecidableEq AccountId]

/-- What the author inherent is configured with. -/
def env (r : Runtime Hash AccountId Material) : AuthorInherent.Env AccountId where
  lookupAccount := AccountSet.lookupAccount r.accountSet
  canAuthor account slot :=
    decide (AuthorSlotFilter.canAuthor (r.filter source) account slot = .ok true)
  slot := r.relayParentNumber

def authorInherent (r : Runtime Hash AccountId Material) : AuthorInherent.State AccountId where
  author := r.author
  inherentIncluded := r.inherentIncluded
  digest := r.system.digest
  env := r.env source

end Runtime

def Runtime.setAuthorInherent (s : AuthorInherent.State AccountId)
    (r : Runtime Hash AccountId Material) : Runtime Hash AccountId Material :=
  { r with author := s.author, inherentIncluded := s.inherentIncluded }

def inAuthorInherent {α : Type} [DecidableEq AccountId]
    (x : AuthorInherent.PalletCall AccountId α) : RuntimeCall Hash AccountId Material α :=
  Call.handle (Call.on (Runtime.authorInherent source) Runtime.setAuthorInherent x)
    fun error => Call.err (.authorInherent error)

def inAuthorFilter {α : Type} (x : AuthorSlotFilter.PalletCall AccountId α) :
    RuntimeCall Hash AccountId Material α :=
  Call.handle (Call.on (Runtime.filter source) Runtime.setFilter x)
    fun error => Call.err (.authorFilter error)

end Pallets

section Api

variable (source : RandomnessSource Hash Material)

/-- `System::initialize`, and `on_initialize` of the randomness source. -/
def initializeSystem (number : ℕ) (parentHash : Hash) (digest : List DigestItem)
    (r : Runtime Hash AccountId Material) : Runtime Hash AccountId Material :=
  { r with
    system := ⟨number, parentHash, digest⟩
    material := source.onInitialize number parentHash r.material }

/-- `NimbusApi::can_author`, on the state of the block with this header. -/
def nimbusApi [DecidableEq AccountId] (hash : Header Hash → Hash)
    (r : Runtime Hash AccountId Material) (author : NimbusId) (slot : U32)
    (parentHeader : Header Hash) : Bool :=
  AuthorInherent.canAuthor ((initializeSystem source (parentHeader.number + 1) (hash parentHeader)
    parentHeader.digest r).env source) author slot

end Api

section Blocks

variable (source : RandomnessSource Hash Material) (hash : Header Hash → Hash)
  (verify : NimbusId → Hash → NimbusSignature → Bool) [DecidableEq AccountId]

/-- The executor strips the seal, the block is initialized, and the pallets' hooks run. -/
def initializeBlock (header : Header Hash) : RuntimeCall Hash AccountId Material Unit := do
  let unsealed ← Call.lift
    ((AuthorInherent.verifyAndRemoveSeal hash verify header).expectOk "Block signature invalid")
  Call.modify (initializeSystem source unsealed.header.number unsealed.header.parentHash
    (unsealed.header.digest.filter fun item => item.asPreRuntime.isSome))
  inAuthorInherent source AuthorInherent.onInitialize
  inAuthorFilter source (AuthorSlotFilter.onInitialize false)

inductive Op (Hash AccountId : Type) where
  | initializeBlock (header : Header Hash)
  /-- The inherent of the parachain system gives the number of the relay parent. -/
  | setValidationData (relayParentNumber : U32)
  | kickOffAuthorshipValidation (origin : RawOrigin AccountId)
  | setEligible (origin : RawOrigin AccountId) (new : List UInt8)
  | finalizeBlock

def Op.run : Op Hash AccountId → RuntimeCall Hash AccountId Material Unit
  | .initializeBlock header => Template.initializeBlock source hash verify header
  | .setValidationData n => Call.modify fun r => { r with relayParentNumber := n }
  | .kickOffAuthorshipValidation origin =>
    inAuthorInherent source (AuthorInherent.kickOffAuthorshipValidation origin)
  | .setEligible origin new =>
    inAuthorFilter source (AuthorSlotFilter.Op.run (.setEligible origin new))
  | .finalizeBlock => inAuthorInherent source AuthorInherent.onFinalize

/-- A block before its extrinsics: its initialization and the two inherents. -/
def executeInherents (header : Header Hash) (relayParentNumber : U32) :
    RuntimeCall Hash AccountId Material Unit := do
  (Op.initializeBlock header : Op Hash AccountId).run source hash verify
  (Op.setValidationData relayParentNumber : Op Hash AccountId).run source hash verify
  (Op.kickOffAuthorshipValidation .none : Op Hash AccountId).run source hash verify

/-- A genesis with these associations. -/
structure Genesis (mapping : List (AccountId × NimbusId)) (r : Runtime Hash AccountId Material) :
    Prop where
  accountSet : r.accountSet = AccountSet.build mapping .empty
  eligibleCount : ∃ n, AuthorSlotFilter.Configured n ∧ r.eligibleCount = some n
  isFakeAuthor : r.isFakeAuthor = false
  inherentIncluded : r.inherentIncluded = false

/-- The runtime as a machine that executes blocks, from a genesis with these associations. -/
def machine (mapping : List (AccountId × NimbusId)) :
    Machine (Runtime Hash AccountId Material) (Op Hash AccountId) (Outcome DispatchError Unit) where
  genesis := Genesis mapping
  exec r op := op.run source hash verify r

abbrev RunEvent (Hash AccountId Material : Type) :=
  Machine.Event (Runtime Hash AccountId Material) (Op Hash AccountId) (Outcome DispatchError Unit)

/-- The events of the current block, newest first. -/
def currentBlock : List (RunEvent Hash AccountId Material) → List (RunEvent Hash AccountId Material)
  | [] => []
  | e :: h =>
    match e.op with
    | .initializeBlock _ => [e]
    | .finalizeBlock => []
    | _ => e :: currentBlock h

inductive Phase where
  | between
  | inherents
  | extrinsics
deriving DecidableEq

/-- How far the current block is. -/
def phase : List (RunEvent Hash AccountId Material) → Phase
  | [] => .between
  | e :: _ =>
    match e.op with
    | .initializeBlock _ => .inherents
    | .setValidationData _ => .inherents
    | .kickOffAuthorshipValidation .none => .inherents
    | .kickOffAuthorshipValidation _ => .extrinsics
    | .setEligible _ _ => .extrinsics
    | .finalizeBlock => .between

/-- Blocks follow each other, and in a block the inherents come before the other extrinsics. -/
def InOrder (h : List (RunEvent Hash AccountId Material)) : Op Hash AccountId → Prop
  | .initializeBlock _ => phase h = .between
  | .setValidationData _ => phase h = .inherents
  | .kickOffAuthorshipValidation .none => phase h = .inherents
  | _ => phase h ≠ .between

instance decidableInOrder (h : List (RunEvent Hash AccountId Material)) :
    ∀ op : Op Hash AccountId, Decidable (InOrder h op)
  | .initializeBlock _ => inferInstanceAs (Decidable (phase h = .between))
  | .setValidationData _ => inferInstanceAs (Decidable (phase h = .inherents))
  | .kickOffAuthorshipValidation .none => inferInstanceAs (Decidable (phase h = .inherents))
  | .kickOffAuthorshipValidation .root => inferInstanceAs (Decidable (phase h ≠ .between))
  | .kickOffAuthorshipValidation (.signed _) => inferInstanceAs (Decidable (phase h ≠ .between))
  | .setEligible _ _ => inferInstanceAs (Decidable (phase h ≠ .between))
  | .finalizeBlock => inferInstanceAs (Decidable (phase h ≠ .between))

/-- The operation does not panic, so the block it is in can go on. -/
def Completes (r : Runtime Hash AccountId Material) (op : Op Hash AccountId) : Prop :=
  (op.run source hash verify r).1.isPanic = false

instance (r : Runtime Hash AccountId Material) (op : Op Hash AccountId) :
    Decidable (Completes source hash verify r op) :=
  inferInstanceAs (Decidable (_ = _))

/-- The event is a successful call of the inherent. -/
def Validates (e : RunEvent Hash AccountId Material) : Prop :=
  match e.op with
  | .kickOffAuthorshipValidation _ => e.answer = .ok ()
  | _ => False

abbrev Run (mapping : List (AccountId × NimbusId)) :=
  (machine source hash verify mapping).Run
    fun h r op => Completes source hash verify r op ∧ InOrder h op

end Blocks

end Template

end Moonkit
