import Mathlib.Algebra.Ring.Int.Defs
import Moonkit.Base.Machine
import Moonkit.Base.RefCount
import Moonkit.Randomness

/-!
# Runs of the randomness pallet

`Randomness.machine` executes the pallet's functions one after another, in any order, together
with what happens around them: a new block, the end of a block, and anything the rest of the
runtime does to what the pallet reads. The disciplines say what callers and the runtime promise;
each result names those it needs.
-/

namespace Moonkit

namespace Randomness

variable {AccountId Hash Ledger : Type} [DecidableEq AccountId]

inductive Action (C : Config AccountId Hash Ledger) where
  | requestRandomness (request : Request C (RequestType C))
  | increaseRequestFee (caller : H160) (id : RequestId) (feeIncrease : Balance C)
  | prepareFulfillment (id : RequestId)
  | finishFulfillment (id : RequestId) (request : Request C (RequestInfo C)) (deposit : Balance C)
      (caller : H160) (costOfExecution : Balance C)
  | executeRequestExpiration (caller : H160) (id : RequestId)
  | setBabeRandomnessResults (origin : RawOrigin AccountId)
  /-- A block begins with what its header and the runtime give, and `on_initialize` runs. -/
  | newBlock (env : Env C)
  | endBlock
  /-- The rest of the runtime changes what the pallet reads, and balances. -/
  | elsewhere (env : Env C) (ledger : Ledger)

/-- An action, and whether its caller rolls its errors back. -/
structure Op (C : Config AccountId Hash Ledger) where
  action : Action C
  transactional : Bool

inductive Answer (C : Config AccountId Hash Ledger) where
  | done
  | requestId (id : RequestId)
  | fulfillArgs (args : FulfillArgs C)

variable {C : Config AccountId Hash Ledger}

def Action.run : Action C → PalletCall C (Answer C)
  | .requestRandomness request => do pure (.requestId (← Randomness.requestRandomness request))
  | .increaseRequestFee caller id feeIncrease => do
    Randomness.increaseRequestFee caller id feeIncrease
    pure .done
  | .prepareFulfillment id => do pure (.fulfillArgs (← Randomness.prepareFulfillment id))
  | .finishFulfillment id request deposit caller costOfExecution => do
    Randomness.finishFulfillment id request deposit caller costOfExecution
    pure .done
  | .executeRequestExpiration caller id => do
    Randomness.executeRequestExpiration caller id
    pure .done
  | .setBabeRandomnessResults origin => do
    Randomness.setBabeRandomnessResults origin
    pure .done
  | .newBlock env => do
    Call.modify fun s => { s with env := env }
    onInitialize
    pure .done
  | .endBlock => do
    onFinalize
    pure .done
  | .elsewhere env ledger => do
    Call.modify fun s => { s with env := env, ledger := ledger }
    pure .done

/-- Execute an operation: a transactional one that fails leaves the state as it was. -/
def exec (s : State C) (op : Op C) : Outcome DispatchError (Answer C) × State C :=
  match op.action.run s with
  | (.err e, s') => (.err e, if op.transactional then s else s')
  | r => r

/-- Storage at genesis: nothing requested, nothing counted, no epoch seen. -/
def Genesis (s : State C) : Prop :=
  s.requests = ∅ ∧ s.randomnessResults = ∅ ∧ s.requestCount = 0 ∧ s.relayEpoch = 0
    ∧ s.notFirstBlock = false

def machine (C : Config AccountId Hash Ledger) :
    Machine (State C) (Op C) (Outcome DispatchError (Answer C)) where
  genesis := Genesis
  exec := exec

abbrev RunEvent (C : Config AccountId Hash Ledger) :=
  Machine.Event (State C) (Op C) (Outcome DispatchError (Answer C))

def RequestInfo.epoch? : RequestInfo C → Option U64
  | .babeEpoch epoch _ => some epoch
  | .localVrf _ _ => none

section History

def issuedId (e : RunEvent C) : Option RequestId :=
  match e.op.action, e.answer with
  | .requestRandomness _, .ok (.requestId id) => some id
  | _, _ => none

def issued (h : List (RunEvent C)) : List RequestId := h.filterMap issuedId

/-- The id, the request and the deposit that a `prepare_fulfillment` returned. -/
def preparedArgs (e : RunEvent C) : Option (RequestId × RequestState C) :=
  match e.op.action, e.answer with
  | .prepareFulfillment id, .ok (.fulfillArgs args) => some (id, ⟨args.request, args.deposit⟩)
  | _, _ => none

def prepared (h : List (RunEvent C)) : List (RequestId × RequestState C) :=
  h.filterMap preparedArgs

/-- The id, the request and the deposit that a `finish_fulfillment` was given. -/
def finishedArgs (e : RunEvent C) : Option (RequestId × RequestState C) :=
  match e.op.action with
  | .finishFulfillment id request deposit _ _ => some (id, ⟨request, deposit⟩)
  | _ => none

def finished (h : List (RunEvent C)) : List (RequestId × RequestState C) :=
  h.filterMap finishedArgs

def isNewBlock (e : RunEvent C) : Bool :=
  match e.op.action, e.answer with
  | .newBlock _, .ok _ => true
  | _, _ => false

/-- The epoch index that a `set_babe_randomness_results` was given. -/
def reportedEpoch (e : RunEvent C) : Option U64 :=
  match e.op.action with
  | .setBabeRandomnessResults _ => some e.before.env.epochIndex
  | _ => none

def reportedEpochs (h : List (RunEvent C)) : List U64 := h.filterMap reportedEpoch

/-- The id of the request an event removes: its fulfilment is finished, or it expires. -/
def closedId (e : RunEvent C) : Option RequestId :=
  match e.op.action, e.answer with
  | .finishFulfillment id _ _ _ _, .ok _ => some id
  | .executeRequestExpiration _ id, .ok _ => some id
  | _, _ => none

/-- What request `id` added to the pallet's account in an event. -/
def paidInBy (id : RequestId) (e : RunEvent C) : ℤ :=
  match e.op.action, e.answer with
  | .requestRandomness _, .ok (.requestId id') =>
    if id' = id then (totalLocked e.after).val - (totalLocked e.before).val else 0
  | .increaseRequestFee _ id' _, .ok _ =>
    if id' = id then (totalLocked e.after).val - (totalLocked e.before).val else 0
  | _, _ => 0

/-- What the pallet's account lost on account of request `id` in an event. -/
def paidOutBy (id : RequestId) (e : RunEvent C) : ℤ :=
  match e.op.action, e.answer with
  | .finishFulfillment id' _ _ _ _, .ok _ =>
    if id' = id then (totalLocked e.before).val - (totalLocked e.after).val else 0
  | .executeRequestExpiration _ id', .ok _ =>
    if id' = id then (totalLocked e.before).val - (totalLocked e.after).val else 0
  | _, _ => 0

/-- What was paid in for request `id`: deposit, fee and all fee increases. -/
def paidIn (h : List (RunEvent C)) (id : RequestId) : ℤ := (h.map (paidInBy id)).sum

def paidOut (h : List (RunEvent C)) (id : RequestId) : ℤ := (h.map (paidOutBy id)).sum

end History

section Discipline

variable (h : List (RunEvent C)) (s : State C) (op : Op C)

/-- The operation does not panic, so the block it is in can go on. -/
def Completes : Prop := (exec s op).1.isPanic = false

instance : Decidable (Completes s op) := inferInstanceAs (Decidable (_ = _))

/-- A fulfilment is finished with the id, request and deposit that preparing it returned, and
while the id is still stored. -/
def FinishesPrepared : Prop :=
  match op.action with
  | .finishFulfillment id request deposit _ _ =>
    (id, ⟨request, deposit⟩) ∈ prepared h ∧ (s.requests.lookup id).isSome
  | _ => True

instance : Decidable (FinishesPrepared h s op) := by
  unfold FinishesPrepared
  split <;> infer_instance

/-- A fulfilment is finished with an id that corresponds to its request: a request with that info
is stored under it. -/
def FinishesStored : Prop :=
  match op.action with
  | .finishFulfillment id request _ _ _ =>
    (s.requests.lookup id).map (·.request.info) = some request.info
  | _ => True

instance : Decidable (FinishesStored s op) := by
  unfold FinishesStored
  split <;> infer_instance

/-- A fulfilment is finished once for each time preparing it returned its id, request and
deposit. -/
def FinishesOnce : Prop :=
  match op.action with
  | .finishFulfillment id request deposit _ _ =>
    (finished h).count (id, ⟨request, deposit⟩) < (prepared h).count (id, ⟨request, deposit⟩)
  | _ => True

instance : Decidable (FinishesOnce h op) := by
  unfold FinishesOnce
  split <;> infer_instance

def RollsBack : Prop := op.transactional = true

instance : Decidable (RollsBack op) := inferInstanceAs (Decidable (_ = _))

def RequesterOutside : Prop :=
  match op.action with
  | .requestRandomness request => C.addressMapping request.contractAddress ≠ C.accountId
  | _ => True

instance : Decidable (RequesterOutside op) := by
  unfold RequesterOutside
  split <;> infer_instance

/-- The pallet's own account neither fulfils nor expires a request and is no refund address. -/
def PayeeOutside : Prop :=
  match op.action with
  | .finishFulfillment _ request _ caller _ =>
    C.addressMapping request.refundAddress ≠ C.accountId ∧ C.addressMapping caller ≠ C.accountId
  | .executeRequestExpiration caller _ => C.addressMapping caller ≠ C.accountId
  | _ => True

instance : Decidable (PayeeOutside op) := by
  unfold PayeeOutside
  split <;> infer_instance

/-- Executing a callback costs no more than deposit and fee. -/
def CostCovered : Prop :=
  match op.action with
  | .finishFulfillment _ request deposit _ cost => cost ≤ deposit.saturatingAdd request.fee
  | _ => True

instance : Decidable (CostCovered op) := by
  unfold CostCovered
  split <;> infer_instance

/-- The transfers of a finished fulfilment succeed: nothing is logged. -/
def RefundsSucceed : Prop :=
  match op.action with
  | .finishFulfillment _ _ _ _ _ => (exec s op).2.warnings = s.warnings
  | _ => True

instance : Decidable (RefundsSucceed s op) := by
  unfold RefundsSucceed
  split <;> infer_instance

/-- The rest of the runtime does not debit the pallet's account. -/
def NobodyElseDebits : Prop :=
  match op.action with
  | .elsewhere _ ledger => totalLocked s ≤ C.currency.freeBalance ledger C.accountId
  | _ => True

instance : Decidable (NobodyElseDebits s op) := by
  unfold NobodyElseDebits
  split <;> infer_instance

/-- Only a new block changes the block number, and raises it. -/
def BlocksIncrease : Prop :=
  match op.action with
  | .newBlock env => s.env.blockNumber < env.blockNumber
  | .elsewhere env _ => env.blockNumber = s.env.blockNumber
  | _ => True

instance : Decidable (BlocksIncrease s op) := by
  unfold BlocksIncrease
  split <;> infer_instance

/-- Only a new block changes the block number, and raises it by one. -/
def BlocksByOne : Prop :=
  match op.action with
  | .newBlock env => env.blockNumber.val = s.env.blockNumber.val + 1
  | .elsewhere env _ => env.blockNumber = s.env.blockNumber
  | _ => True

instance : Decidable (BlocksByOne s op) := by
  unfold BlocksByOne
  split <;> infer_instance

def RequestsInBlocks : Prop :=
  match op.action with
  | .requestRandomness _ => h.any isNewBlock
  | _ => True

instance : Decidable (RequestsInBlocks h op) := by
  unfold RequestsInBlocks
  split <;> infer_instance

/-- The relay epoch index the runtime reports never decreases. -/
def EpochsNeverDecrease : Prop :=
  match op.action with
  | .setBabeRandomnessResults _ => ∀ i ∈ reportedEpochs h, i ≤ s.env.epochIndex
  | _ => True

instance : Decidable (EpochsNeverDecrease h s op) := by
  unfold EpochsNeverDecrease
  split <;> infer_instance

def EpochRandomnessKnown : Prop :=
  match op.action with
  | .setBabeRandomnessResults _ => s.env.epochRandomness.isSome
  | _ => True

instance : Decidable (EpochRandomnessKnown s op) := by
  unfold EpochRandomnessKnown
  split <;> infer_instance

/-- Setting the relay randomness does not step over an epoch that a stored request waits for. -/
def SkipsNoDueEpoch : Prop :=
  match op.action with
  | .setBabeRandomnessResults .none =>
    ∀ id ∈ s.requests.keys, ∀ r ∈ s.requests.lookup id, ∀ epoch ∈ r.request.info.epoch?,
      ¬ (s.relayEpoch < epoch ∧ epoch < s.env.epochIndex)
  | _ => True

instance : Decidable (SkipsNoDueEpoch s op) := by
  unfold SkipsNoDueEpoch
  split <;> infer_instance

/-- Requests are for later blocks. -/
def MinDelayPositive : Prop := 1 ≤ s.env.constants.minBlockDelay.val

instance : Decidable (MinDelayPositive s) := inferInstanceAs (Decidable (_ ≤ _))

/-- What callers and the runtime promise about money. -/
structure Careful : Prop where
  completes : Completes s op
  rollsBack : RollsBack op
  requester : RequesterOutside op
  finishes : FinishesPrepared h s op
  cost : CostCovered op
  debits : NobodyElseDebits s op

instance : Decidable (Careful h s op) :=
  decidable_of_iff (Completes s op ∧ RollsBack op ∧ RequesterOutside op ∧ FinishesPrepared h s op
      ∧ CostCovered op ∧ NobodyElseDebits s op)
    ⟨fun ⟨h₁, h₂, h₃, h₄, h₅, h₆⟩ => ⟨h₁, h₂, h₃, h₄, h₅, h₆⟩,
      fun ⟨h₁, h₂, h₃, h₄, h₅, h₆⟩ => ⟨h₁, h₂, h₃, h₄, h₅, h₆⟩⟩

/-- What callers and the runtime promise about money, with every refund paid out to others. -/
structure Settling : Prop extends Careful h s op where
  payee : PayeeOutside op
  refunds : RefundsSucceed s op

instance : Decidable (Settling h s op) :=
  decidable_of_iff (Careful h s op ∧ PayeeOutside op ∧ RefundsSucceed s op)
    ⟨fun ⟨h₁, h₂, h₃⟩ => ⟨h₁, h₂, h₃⟩, fun ⟨h₁, h₂, h₃⟩ => ⟨h₁, h₂, h₃⟩⟩

end Discipline

end Randomness

end Moonkit
