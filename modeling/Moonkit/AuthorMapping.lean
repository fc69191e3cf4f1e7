import Moonkit.Base.Machine
import Moonkit.Base.Reservable
import Moonkit.Primitives

/-!
# The author-mapping pallet

`pallets/author-mapping/src/lib.rs`. An account registers nimbus ids against a deposit that is
reserved on it. `mappingWithDeposit` holds the registrations by id, and `nimbusLookup` an id for an
account. `AuthorMapping.machine` takes a chain from the registrations of a genesis through the
calls of the pallet.
-/

namespace Moonkit

namespace AuthorMapping

structure Config (AccountId Keys Ledger : Type) where
  balanceMax : ℕ
  depositCurrency : ReservableCurrency AccountId Ledger balanceMax
  /-- The default keys of a nimbus id. -/
  keysFrom : NimbusId → Keys
  sizeOfKeys : ℕ
  decodeKeys : List UInt8 → Option Keys

variable {AccountId Keys Ledger : Type}

abbrev Balance (C : Config AccountId Keys Ledger) := Uint C.balanceMax

structure RegistrationInfo (C : Config AccountId Keys Ledger) where
  account : AccountId
  deposit : Balance C
  keys : Keys

instance (C : Config AccountId Keys Ledger) [DecidableEq AccountId] [DecidableEq Keys] :
    DecidableEq (RegistrationInfo C)
  | ⟨a, d, k⟩, ⟨a', d', k'⟩ => decidable_of_iff (a = a' ∧ d = d' ∧ k = k') (by simp)

inductive Error where
  | associationNotFound
  | notYourAssociation
  | cannotAffordSecurityDeposit
  | alreadyAssociated
  | oldAuthorIdNotFound
  | wrongKeySize
  | decodeNimbusFailed
  | decodeKeysFailed
deriving DecidableEq

inductive DispatchError where
  | pallet (e : Error)
  | badOrigin
deriving DecidableEq

inductive Event (AccountId Keys : Type) where
  | keysRegistered (nimbusId : NimbusId) (accountId : AccountId) (keys : Keys)
  | keysRemoved (nimbusId : NimbusId) (accountId : AccountId) (keys : Keys)
  | keysRotated (newNimbusId : NimbusId) (accountId : AccountId) (newKeys : Keys)
deriving DecidableEq

/-- The pallet's storage, with what it reads of the rest of the runtime. -/
structure State (C : Config AccountId Keys Ledger) where
  mappingWithDeposit : StorageMap NimbusId (RegistrationInfo C)
  nimbusLookup : StorageMap AccountId NimbusId
  ledger : Ledger
  depositAmount : Balance C
  events : List (Event AccountId Keys)

variable {C : Config AccountId Keys Ledger}

abbrev PalletCall (C : Config AccountId Keys Ledger) (α : Type) := Call (State C) DispatchError α

def depositEvent (event : Event AccountId Keys) : PalletCall C Unit :=
  Call.modify fun s => { s with events := s.events ++ [event] }

/-- The account that signed the call. -/
def ensureSigned (origin : RawOrigin AccountId) : PalletCall C AccountId :=
  match origin with
  | .signed accountId => pure accountId
  | _ => Call.err .badOrigin

/-- `T::DepositCurrency::reserve`, with its error replaced. -/
def reserve (accountId : AccountId) (amount : Balance C) : PalletCall C Unit := fun s =>
  match C.depositCurrency.reserve s.ledger accountId amount with
  | some ledger => (.ok (), { s with ledger := ledger })
  | none => (.err (.pallet .cannotAffordSecurityDeposit), s)

/-- Size of `NimbusId` + `T::Keys`, to check the size of `set_keys` input before trying to
decode. -/
def keysSize (C : Config AccountId Keys Ledger) : ℕ := 32 + C.sizeOfKeys

section Lookups

variable (s : State C)

def accountIdOf (nimbusId : NimbusId) : Option AccountId :=
  (s.mappingWithDeposit.lookup nimbusId).map RegistrationInfo.account

def nimbusIdOf [DecidableEq AccountId] (accountId : AccountId) : Option NimbusId :=
  s.nimbusLookup.lookup accountId

end Lookups

variable [DecidableEq AccountId]

section Pallet

def rmKeys (nimbusId : NimbusId) (accountId : AccountId) : PalletCall C Unit := do
  let s ← Call.get
  let storedInfo ← Call.okOr (s.mappingWithDeposit.lookup nimbusId)
    (.pallet .associationNotFound)
  Call.ensure (accountId = storedInfo.account) (.pallet .notYourAssociation)
  Call.modify fun s => { s with mappingWithDeposit := s.mappingWithDeposit.erase nimbusId }
  Call.modify fun s => { s with nimbusLookup := s.nimbusLookup.erase accountId }
  Call.modify fun s => { s with
    ledger := (C.depositCurrency.unreserve s.ledger accountId storedInfo.deposit).2 }
  depositEvent (.keysRemoved nimbusId accountId storedInfo.keys)

def enactRegistration (nimbusId : NimbusId) (accountId : AccountId) (keys : Keys) :
    PalletCall C Unit := do
  let s ← Call.get
  let deposit := s.depositAmount
  reserve accountId deposit
  let info : RegistrationInfo C := ⟨accountId, deposit, keys⟩
  Call.modify fun s => { s with
    mappingWithDeposit := s.mappingWithDeposit.insert nimbusId info }
  Call.modify fun s => { s with nimbusLookup := s.nimbusLookup.insert accountId nimbusId }

def registerKeys (nimbusId : NimbusId) (accountId : AccountId) (keys : Keys) :
    PalletCall C Unit := do
  let s ← Call.get
  Call.ensure ((s.mappingWithDeposit.lookup nimbusId).isNone) (.pallet .alreadyAssociated)
  enactRegistration nimbusId accountId keys
  depositEvent (.keysRegistered nimbusId accountId keys)

def rotateKeys (oldNimbusId newNimbusId : NimbusId) (accountId : AccountId) (newKeys : Keys) :
    PalletCall C Unit := do
  let s ← Call.get
  let storedInfo ← Call.okOr (s.mappingWithDeposit.lookup oldNimbusId)
    (.pallet .associationNotFound)
  Call.ensure (accountId = storedInfo.account) (.pallet .notYourAssociation)
  if oldNimbusId ≠ newNimbusId then
    -- cannot overwrite a NimbusId if it is not yours
    Call.ensure ((s.mappingWithDeposit.lookup newNimbusId).isNone) (.pallet .alreadyAssociated)
  else pure ()
  Call.modify fun s => { s with mappingWithDeposit := s.mappingWithDeposit.erase oldNimbusId }
  let newStoredInfo := { storedInfo with keys := newKeys }
  Call.modify fun s => { s with
    mappingWithDeposit := s.mappingWithDeposit.insert newNimbusId newStoredInfo }
  Call.modify fun s => { s with nimbusLookup := s.nimbusLookup.insert accountId newNimbusId }
  depositEvent (.keysRotated newNimbusId accountId newKeys)

end Pallet

section Extrinsics

def addAssociation (origin : RawOrigin AccountId) (nimbusId : NimbusId) : PalletCall C Unit := do
  let accountId ← ensureSigned origin
  registerKeys nimbusId accountId (C.keysFrom nimbusId)

def updateAssociation (origin : RawOrigin AccountId) (oldNimbusId newNimbusId : NimbusId) :
    PalletCall C Unit := do
  let accountId ← ensureSigned origin
  rotateKeys oldNimbusId newNimbusId accountId (C.keysFrom newNimbusId)

def clearAssociation (origin : RawOrigin AccountId) (nimbusId : NimbusId) : PalletCall C Unit := do
  let accountId ← ensureSigned origin
  rmKeys nimbusId accountId

def removeKeys (origin : RawOrigin AccountId) : PalletCall C Unit := do
  let accountId ← ensureSigned origin
  let s ← Call.get
  let nimbusId ← Call.okOr (nimbusIdOf s accountId) (.pallet .oldAuthorIdNotFound)
  rmKeys nimbusId accountId

def setKeys (origin : RawOrigin AccountId) (keys : List UInt8) : PalletCall C Unit := do
  let accountId ← ensureSigned origin
  Call.ensure (keys.length = keysSize C) (.pallet .wrongKeySize)
  let newNimbusId ← Call.okOr (Bytes.decode 32 keys) (.pallet .decodeNimbusFailed)
  let keys ← Call.okOr (C.decodeKeys (keys.drop 32)) (.pallet .decodeKeysFailed)
  let s ← Call.get
  match nimbusIdOf s accountId with
  | some oldNimbusId => rotateKeys oldNimbusId newNimbusId accountId keys
  | none => registerKeys newNimbusId accountId keys

end Extrinsics

section Runs

/-- `GenesisConfig::build`: a registration that fails is logged and left out. -/
def build : List (NimbusId × AccountId) → State C → State C
  | [], s => s
  | (nimbusId, accountId) :: mappings, s =>
    build mappings (enactRegistration nimbusId accountId (C.keysFrom nimbusId) s).2

inductive Op (C : Config AccountId Keys Ledger) where
  | addAssociation (origin : RawOrigin AccountId) (nimbusId : NimbusId)
  | updateAssociation (origin : RawOrigin AccountId) (oldNimbusId newNimbusId : NimbusId)
  | clearAssociation (origin : RawOrigin AccountId) (nimbusId : NimbusId)
  | removeKeys (origin : RawOrigin AccountId)
  | setKeys (origin : RawOrigin AccountId) (keys : List UInt8)
  /-- The rest of the runtime changes balances, or the deposit that is asked for. -/
  | elsewhere (ledger : Ledger) (depositAmount : Balance C)

def Op.run : Op C → PalletCall C Unit
  | .addAssociation origin nimbusId => AuthorMapping.addAssociation origin nimbusId
  | .updateAssociation origin oldNimbusId newNimbusId =>
    AuthorMapping.updateAssociation origin oldNimbusId newNimbusId
  | .clearAssociation origin nimbusId => AuthorMapping.clearAssociation origin nimbusId
  | .removeKeys origin => AuthorMapping.removeKeys origin
  | .setKeys origin keys => AuthorMapping.setKeys origin keys
  | .elsewhere ledger depositAmount => Call.modify fun s =>
    { s with ledger := ledger, depositAmount := depositAmount }

/-- Storage before genesis. -/
def State.empty (ledger : Ledger) (depositAmount : Balance C) : State C :=
  ⟨∅, ∅, ledger, depositAmount, []⟩

/-- The pallet as a machine, from a genesis whose nimbus ids are pairwise distinct, on a ledger of
which `fresh` holds. -/
def machine (C : Config AccountId Keys Ledger) (fresh : Ledger → Prop) :
    Machine (State C) (Op C) (Outcome DispatchError Unit) where
  genesis s := ∃ (mappings : List (NimbusId × AccountId)) (ledger : Ledger)
    (depositAmount : Balance C), (mappings.map Prod.fst).Nodup ∧ fresh ledger ∧
      s = build mappings (.empty ledger depositAmount)
  exec s op := op.run s

abbrev RunEvent (C : Config AccountId Keys Ledger) :=
  Machine.Event (State C) (Op C) (Outcome DispatchError Unit)

end Runs

end AuthorMapping

end Moonkit
