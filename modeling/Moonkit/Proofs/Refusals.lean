import Moonkit.Proofs.RandomnessEffect
import Moonkit.RandomnessMock

/-!
# What a refused operation leaves

A request and an increase of a fee make their one payment before they write anything, so they leave
everything as it was when they fail. An expiration that somebody else executes makes two payments,
the deposit to the contract and the fee to the caller, and fails at the second one without taking
the first one back: called as a plain function it leaves the deposit paid and the request stored.
-/

namespace Moonkit

namespace Randomness

variable {AccountId Hash Ledger : Type} {C : Config AccountId Hash Ledger} {s s' : State C}

/-- The functions of the pallet for the precompile that answer with errors. -/
def Action.Fallible : Action C → Prop
  | .requestRandomness _ | .increaseRequestFee _ _ _ | .executeRequestExpiration _ _ => True
  | _ => False

/-- Requests, their number, results and balances are the same. -/
structure Unchanged (s s' : State C) : Prop where
  requests : s'.requests = s.requests
  requestCount : s'.requestCount = s.requestCount
  randomnessResults : s'.randomnessResults = s.randomnessResults
  balances : ∀ account,
    C.currency.freeBalance s'.ledger account = C.currency.freeBalance s.ledger account

/-- The ledger pays a deposit out to the contract, and then no fee to the caller. -/
structure PaysDepositOnly (s : State C) (caller : AccountId) (r : RequestState C)
    (ledger : Ledger) (e : TransferError) : Prop where
  expired : r.request.isExpired s = true
  other : caller ≠ C.addressMapping r.request.contractAddress
  deposit : C.currency.transfer s.ledger C.accountId (C.addressMapping r.request.contractAddress)
    r.deposit = .ok ledger
  fee : C.currency.transfer ledger C.accountId caller r.request.fee = .error e

/-- The action is the expiration of a request that has expired, by somebody else than its contract,
that pays a deposit which is not zero to a contract which is not the pallet's account, and whose fee
the ledger does not pay after that. -/
def HalfPaid (s : State C) : Action C → Prop
  | .executeRequestExpiration caller id => ∃ r ledger e, s.requests.lookup id = some r ∧
      PaysDepositOnly s (C.addressMapping caller) r ledger e ∧ r.deposit ≠ 0 ∧
      C.addressMapping r.request.contractAddress ≠ C.accountId
  | _ => False

theorem Unchanged.refl (s : State C) : Unchanged s s := ⟨rfl, rfl, rfl, fun _ => rfl⟩

variable [DecidableEq AccountId]

/-- An expiration that fails leaves the state as it is, unless the deposit is paid and the fee is
not. -/
theorem executeExpiration_err {r : RequestState C} {caller : AccountId} {e : DispatchError}
    (h : r.executeExpiration caller s = (.err e, s')) :
    s' = s ∨ ∃ ledger e', PaysDepositOnly s caller r ledger e' ∧
      s' = { s with ledger := ledger } := by
  unfold RequestState.executeExpiration at h
  rw [Call.get_bind, Call.ensure_bind] at h
  by_cases hexpired : r.request.isExpired s = true
  swap
  · rw [if_neg hexpired] at h
    exact .inl (Prod.mk.inj h).2.symm
  rw [if_pos hexpired] at h
  split_ifs at h with hcaller
  · rcases ht : C.currency.transfer s.ledger C.accountId
      (C.addressMapping r.request.contractAddress) (r.deposit.saturatingAdd r.request.fee)
      with e' | ledger
    · rw [transfer_error ht] at h
      exact .inl (Prod.mk.inj h).2.symm
    · rw [transfer_ok ht] at h
      simp at h
  · rcases ht : C.currency.transfer s.ledger C.accountId
      (C.addressMapping r.request.contractAddress) r.deposit with e' | ledger
    · rw [Call.bind_err (transfer_error ht)] at h
      exact .inl (Prod.mk.inj h).2.symm
    · rw [Call.bind_ok (transfer_ok ht)] at h
      rcases hfee : C.currency.transfer ledger C.accountId caller r.request.fee with e' | ledger'
      · rw [transfer_error (s := { s with ledger := ledger }) hfee] at h
        exact .inr ⟨ledger, e', ⟨hexpired, hcaller, ht, hfee⟩, (Prod.mk.inj h).2.symm⟩
      · rw [transfer_ok (s := { s with ledger := ledger }) hfee] at h
        simp at h

theorem executeExpiration_depositOnly {r : RequestState C} {caller : AccountId} {ledger : Ledger}
    {e : TransferError} (h : PaysDepositOnly s caller r ledger e) :
    r.executeExpiration caller s = (.err (.token e), { s with ledger := ledger }) := by
  unfold RequestState.executeExpiration
  rw [Call.get_bind, Call.ensure_bind, if_pos h.expired]
  simp only [if_neg h.other]
  rw [Call.bind_ok (transfer_ok h.deposit)]
  exact transfer_error h.fee

/-- Where an expiration fails, its payments did, or there was none to make. -/
theorem executeRequestExpiration_err {caller : H160} {id : RequestId} {e : DispatchError}
    (h : executeRequestExpiration caller id s = (.err e, s')) :
    s' = s ∨ ∃ r, s.requests.lookup id = some r ∧
      r.executeExpiration (C.addressMapping caller) s = (.err e, s') := by
  unfold executeRequestExpiration at h
  rw [Call.get_bind] at h
  rcases hr : s.requests.lookup id with _ | r
  · rw [hr] at h
    exact .inl (Prod.mk.inj h).2.symm
  · rw [hr, Call.okOr_some, Call.pure_bind_apply] at h
    obtain ⟨ledger, ⟨e', hp⟩ | hp⟩ := executeExpiration_cases r (C.addressMapping caller) s
    · rw [Call.bind_err hp] at h
      obtain ⟨he, rfl⟩ := Prod.mk.inj h
      obtain rfl := Outcome.err.inj he
      exact .inr ⟨r, rfl, hp⟩
    · rw [Call.bind_ok hp, Call.bind_ok (decrementResult_apply _ _)] at h
      simp [depositEvent, Call.modify_bind, Call.modify] at h

/-- An expiration that fails leaves everything as it was exactly if it is not half paid. -/
theorem expiration_unchanged_iff {caller : H160} {id : RequestId} {e : DispatchError}
    (h : executeRequestExpiration caller id s = (.err e, s')) :
    Unchanged s s' ↔ ¬ HalfPaid s (.executeRequestExpiration caller id) := by
  constructor
  · rintro hsame ⟨r, ledger, e', hr, hpays, hdeposit, hcontract⟩
    unfold executeRequestExpiration at h
    rw [Call.get_bind, hr, Call.okOr_some, Call.pure_bind_apply,
      Call.bind_err (executeExpiration_depositOnly hpays)] at h
    have hledger : ledger = s'.ledger := congrArg State.ledger (Prod.mk.inj h).2
    have hmoved := C.currency.transfer_moved hdeposit hcontract.symm hpays.deposit
    rw [hledger] at hmoved
    exact hmoved (hsame.balances _)
  · intro hnot
    rcases executeRequestExpiration_err h with rfl | ⟨r, hr, hrun⟩
    · exact .refl _
    rcases executeExpiration_err hrun with rfl | ⟨ledger, e', hpays, rfl⟩
    · exact .refl _
    · refine ⟨rfl, rfl, rfl, C.currency.transfer_unmoved ?_ hpays.deposit⟩
      by_contra hmoved
      rw [not_or] at hmoved
      exact hnot ⟨r, ledger, e', hr, hpays, hmoved.1, fun heq => hmoved.2 heq.symm⟩

/-- What a fallible function that fails leaves. -/
theorem run_unchanged_iff {action : Action C} (hf : action.Fallible) {e : DispatchError}
    (h : action.run s = (.err e, s')) : Unchanged s s' ↔ ¬ HalfPaid s action := by
  cases action with
  | requestRandomness request =>
    have hcall : requestRandomness request s = (.err e, s') := Call.err_of_bind_pure h
    rcases requestRandomness_cases request s true with ⟨e', hrun⟩ | ⟨_, _, hrun, -⟩
    · obtain rfl := (Prod.mk.inj (hrun.symm.trans hcall)).2
      exact iff_of_true (.refl _) fun hhalf => hhalf
    · simp [hrun] at hcall
  | increaseRequestFee caller id feeIncrease =>
    have hcall : increaseRequestFee caller id feeIncrease s = (.err e, s') :=
      Call.err_of_bind_pure h
    rcases increaseRequestFee_cases caller id feeIncrease s true with ⟨e', hrun⟩ | ⟨_, hrun, -⟩
    · obtain rfl := (Prod.mk.inj (hrun.symm.trans hcall)).2
      exact iff_of_true (.refl _) fun hhalf => hhalf
    · simp [hrun] at hcall
  | executeRequestExpiration caller id => exact expiration_unchanged_iff (Call.err_of_bind_pure h)
  | _ => exact hf.elim

/-- **Refusals.** Along every run, a request, an increase of a fee or an expiration that is called
as a plain function and fails leaves requests, their number, results and all balances as they were
if and only if it is not an expiration that pays the deposit and then cannot pay the fee. -/
theorem refused_unchanged_iff {h : List (RunEvent C)}
    (hr : Machine.Run (machine C) (fun _ _ _ => True) h s) {event : RunEvent C} (he : event ∈ h)
    (hf : event.op.action.Fallible) (hplain : event.op.transactional = false)
    {e : DispatchError} (herr : event.answer = .err e) :
    Unchanged event.before event.after ↔ ¬ HalfPaid event.before event.op.action := by
  obtain ⟨-, -, -, heq⟩ := hr.mem_event he
  have hexec : exec event.before event.op = (event.answer, event.after) := by
    rw [heq]
    rfl
  refine run_unchanged_iff hf (e := e) ?_
  rcases hrun : event.op.action.run event.before with ⟨a | e' | m, s₁⟩
  · simp [exec, hrun, herr] at hexec
  · simpa [exec, hrun, herr, hplain] using hexec
  · simp [exec, hrun, herr] at hexec

open Mock

/-- The mock runtime with an existential deposit of ten. -/
def testMinimum : Config H160 H256 Mock.Ledger :=
  { test with balanceMax := 2 ^ 128 - 1, currency := Currency.checked H160 (2 ^ 128 - 1) 10 }

def envMinimum (blockNumber : BlockNumber testMinimum) : Env testMinimum where
  constants := ⟨.lit 10, 1, .lit 2, .lit 20, .lit 20, .lit 20⟩
  blockNumber := blockNumber
  digest := []
  epochIndex := .lit 1
  epochRandomness := none
  lookupKeys := fun _ => none
  fakeVrf := true

/-- `alice` has 100 and nobody else has anything. -/
def genesisMinimum : State testMinimum where
  requests := ∅
  requestCount := 0
  localVrfOutput := none
  relayEpoch := 0
  inherentIncluded := false
  notFirstBlock := false
  randomnessResults := ∅
  previousLocalVrfOutput := Vector.replicate 32 0
  ledger := ⟨.lit 100, fun account => if account = alice then .lit 100 else 0⟩
  events := []
  warnings := []
  env := envMinimum 0

/-- A request of `alice` for block 3, with a fee of five. -/
def requestMinimum : Action testMinimum :=
  .requestRandomness ⟨bob, alice, .lit 5, .lit 100, 1, Vector.replicate 32 0, .localVrf (.lit 3)⟩

/-- Two requests, and an action in the block in which they have expired. -/
def expiring (action : Action testMinimum) : List (Op testMinimum) :=
  [⟨.newBlock (envMinimum (.lit 1)), true⟩, ⟨requestMinimum, true⟩, ⟨requestMinimum, true⟩,
    ⟨.newBlock (envMinimum (.lit 30)), true⟩, ⟨action, false⟩]

def replayedMinimum (ops : List (Op testMinimum)) :
    List (RunEvent testMinimum) × State testMinimum :=
  (machine testMinimum).replay [] genesisMinimum ops

theorem run_replayedMinimum (ops : List (Op testMinimum)) :
    Machine.Run (machine testMinimum) (fun _ _ _ => True) (replayedMinimum ops).1
      (replayedMinimum ops).2 :=
  Machine.run_replay_all ops (.start ⟨rfl, rfl, rfl, rfl, rfl⟩)

/-- The state in which the two requests have expired. -/
def expiredMinimum : State testMinimum :=
  (replayedMinimum ((expiring requestMinimum).take 4)).2

/-- The event of an action in that state. -/
def eventMinimum (action : Action testMinimum) : RunEvent testMinimum :=
  (machine testMinimum).event expiredMinimum ⟨action, false⟩

theorem eventMinimum_mem (action : Action testMinimum) :
    eventMinimum action ∈ (replayedMinimum (expiring action)).1 :=
  List.mem_cons_self

/-- A third request for more than `alice` has left is refused. -/
def refusedRequest : Action testMinimum :=
  .requestRandomness ⟨bob, alice, .lit 70, .lit 100, 1, Vector.replicate 32 0, .localVrf (.lit 40)⟩

theorem refused_unchanged_request :
    (eventMinimum refusedRequest).answer = .err (.token .fundsUnavailable) ∧
      Unchanged (eventMinimum refusedRequest).before (eventMinimum refusedRequest).after := by
  have herr : (eventMinimum refusedRequest).answer = .err (.token .fundsUnavailable) := rfl
  have hmem := eventMinimum_mem refusedRequest
  exact ⟨herr, (refused_unchanged_iff (run_replayedMinimum _) hmem trivial rfl herr).2
    fun hhalf => hhalf⟩

/-- `bob` executes the expiration of the first request, whose fee cannot open an account. -/
def refusedExpiration : Action testMinimum := .executeRequestExpiration bob 0

theorem refused_expiration_pays_deposit :
    eventMinimum refusedExpiration ∈ (replayedMinimum (expiring refusedExpiration)).1 ∧
      Machine.Run (machine testMinimum) (fun _ _ _ => True)
        (replayedMinimum (expiring refusedExpiration)).1
        (replayedMinimum (expiring refusedExpiration)).2 ∧
      (eventMinimum refusedExpiration).op = ⟨.executeRequestExpiration bob 0, false⟩ ∧
      (eventMinimum refusedExpiration).answer = .err (.token .belowMinimum) ∧
      ((eventMinimum refusedExpiration).before.ledger.free alice).val = 70 ∧
      ((eventMinimum refusedExpiration).after.ledger.free alice).val = 80 ∧
      ((eventMinimum refusedExpiration).after.requests.lookup 0).isSome ∧
      ¬ Unchanged (eventMinimum refusedExpiration).before
        (eventMinimum refusedExpiration).after := by
  have hbefore : ((eventMinimum refusedExpiration).before.ledger.free alice).val = 70 := by
    decide +kernel
  have hafter : ((eventMinimum refusedExpiration).after.ledger.free alice).val = 80 := by
    decide +kernel
  refine ⟨eventMinimum_mem _, run_replayedMinimum _, rfl, rfl, hbefore, hafter, by decide +kernel,
    fun hsame => ?_⟩
  have hbalance : (eventMinimum refusedExpiration).after.ledger.free alice =
      (eventMinimum refusedExpiration).before.ledger.free alice := hsame.balances alice
  rw [hbalance, hbefore] at hafter
  exact absurd hafter (by decide)

end Randomness

end Moonkit
