import Mathlib.Algebra.BigOperators.Ring.Finset
import Moonkit.Proofs.Solvency

/-!
# What a fulfilment spends

Finishing a fulfilment refunds the caller from deposit and fee of the request, and gives what is
left of them to the refund address. A cost above them is found out, but only what would be left is
withheld then: the caller is paid the whole cost, out of what the pallet's account has for the other
requests. So a fulfilment spends the request's own money exactly if the cost is within it, or that
payment fails.
-/

namespace Moonkit

namespace Randomness

variable {AccountId Hash Ledger : Type} {C : Config AccountId Hash Ledger} {s s' : State C}

/-- What an account of the ledger has. -/
def balanceOf (s : State C) (account : AccountId) : ℕ :=
  (C.currency.freeBalance s.ledger account).val

variable [DecidableEq AccountId]

/-- The accounts that finishing a fulfilment pays. -/
def payees (request : Request C (RequestInfo C)) (caller : H160) : Finset AccountId :=
  {C.addressMapping request.refundAddress, C.addressMapping caller}

/-- From `s` to `s'` the pallet's account spends at most deposit and fee of the request, all of it
on the payees, and goes on covering what it owes. -/
structure SpendsOwn (r : RequestState C) (caller : H160) (s s' : State C) : Prop where
  spent_le : (totalLocked s).val ≤ (totalLocked s').val + obligation r
  spent_received : ((totalLocked s).val : ℤ) - (totalLocked s').val =
    ∑ account ∈ payees r.request caller, ((balanceOf s' account : ℤ) - balanceOf s account)
  others_covered : obligations s ≤ (totalLocked s).val → obligations s' ≤ (totalLocked s').val

section Payments

variable {request : Request C (RequestInfo C)} {deposit cost : Balance C} {caller : H160}
  {S : Finset AccountId}

/-- A logged transfer within a set of accounts leaves what they have together. -/
theorem tryTransfer_sum {source dest : AccountId} {amount : Balance C} (hsource : source ∈ S)
    (hdest : dest ∈ S) (h : tryTransferOrLogError source dest amount s = (.ok (), s')) :
    ∑ account ∈ S, balanceOf s' account = ∑ account ∈ S, balanceOf s account := by
  unfold tryTransferOrLogError at h
  rcases ht : C.currency.transfer s.ledger source dest amount with e | ledger
  · simp only [ht, Prod.mk.injEq] at h
    obtain ⟨-, rfl⟩ := h
    rfl
  · simp only [ht, Prod.mk.injEq] at h
    obtain ⟨-, rfl⟩ := h
    exact C.currency.transfer_sum hsource hdest ht

theorem finishFulfill_sum (hpallet : C.accountId ∈ S)
    (hrefund : C.addressMapping request.refundAddress ∈ S) (hcaller : C.addressMapping caller ∈ S)
    (h : request.finishFulfill deposit caller cost s = (.ok (), s')) :
    ∑ account ∈ S, balanceOf s' account = ∑ account ∈ S, balanceOf s account := by
  unfold Request.finishFulfill at h
  rcases hs : (deposit.saturatingAdd request.fee).checkedSub cost with _ | excess
  · simp only [hs] at h
    exact tryTransfer_sum hpallet hcaller h
  · simp only [hs] at h
    split_ifs at h
    · exact tryTransfer_sum hpallet hrefund h
    · obtain ⟨⟨⟩, s₁, h₁, h₂⟩ := Call.bind_eq_ok.1 h
      rw [tryTransfer_sum hpallet hcaller h₂, tryTransfer_sum hpallet hrefund h₁]

/-- What the pallet's account spends on a fulfilment, the payees receive. -/
theorem finishFulfill_received (hrefund : C.addressMapping request.refundAddress ≠ C.accountId)
    (hcaller : C.addressMapping caller ≠ C.accountId)
    (h : request.finishFulfill deposit caller cost s = (.ok (), s')) :
    ((totalLocked s).val : ℤ) - (totalLocked s').val =
      ∑ account ∈ payees request caller, ((balanceOf s' account : ℤ) - balanceOf s account) := by
  have hnot : C.accountId ∉ payees request caller := by
    simp only [payees, Finset.mem_insert, Finset.mem_singleton, not_or]
    exact ⟨hrefund.symm, hcaller.symm⟩
  have hsum := finishFulfill_sum (S := insert C.accountId (payees request caller))
    (Finset.mem_insert_self _ _) (by simp [payees]) (by simp [payees]) h
  rw [Finset.sum_insert hnot, Finset.sum_insert hnot] at hsum
  rw [Finset.sum_sub_distrib, ← Nat.cast_sum, ← Nat.cast_sum]
  simp only [totalLocked, balanceOf] at hsum ⊢
  omega

omit [DecidableEq AccountId] in
/-- A cost above deposit and fee is paid to the caller and nothing else is. -/
theorem finishFulfill_overspent (hcost : deposit.saturatingAdd request.fee < cost) :
    request.finishFulfill deposit caller cost =
      tryTransferOrLogError C.accountId (C.addressMapping caller) cost := by
  have hnone : (deposit.saturatingAdd request.fee).checkedSub cost = none :=
    Uint.checkedSub_eq_none.2 (Uint.lt_iff_val.1 hcost)
  simp only [Request.finishFulfill, hnone]

end Payments

section Finish

variable {id : RequestId} {r : RequestState C} {caller : H160} {cost : Balance C}

/-- The state after a finished fulfilment has the ledger of its payments, and no request `id`. -/
theorem finishFulfillment_state (id : RequestId) (request : Request C (RequestInfo C))
    (deposit : Balance C) (caller : H160) (cost : Balance C) (s : State C) :
    ∃ s₁, request.finishFulfill deposit caller cost s = (.ok (), s₁) ∧
      (finishFulfillment id request deposit caller cost s).2.ledger = s₁.ledger ∧
      (finishFulfillment id request deposit caller cost s).2.requests = s.requests.erase id := by
  obtain ⟨s', hrun, heffect⟩ := finishFulfillment_cases id request deposit caller cost s true
  rw [hrun]
  cases heffect with
  | finished hp => exact ⟨_, hp, rfl, rfl⟩

omit [DecidableEq AccountId] in
/-- A payment of at most deposit and fee leaves the other requests covered. -/
theorem covered_of_spent_le (hr : s.requests.lookup id = some r)
    (herase : s'.requests = s.requests.erase id)
    (hspent : (totalLocked s).val ≤ (totalLocked s').val + obligation r)
    (hcovered : obligations s ≤ (totalLocked s).val) : obligations s' ≤ (totalLocked s').val := by
  have htotal := Finmap.total_erase_add (f := obligation) hr
  simp only [obligations] at hcovered ⊢
  rw [herase]
  omega

/-- **Own money.** A fulfilment of a stored request whose refund address and caller are not the
pallet's account spends the money of that request only if and only if the cost of execution is at
most deposit and fee, or the ledger does not allow the payment of the cost to the caller. -/
theorem finish_spends_own_iff (hr : s.requests.lookup id = some r)
    (hrefund : C.addressMapping r.request.refundAddress ≠ C.accountId)
    (hcaller : C.addressMapping caller ≠ C.accountId) :
    SpendsOwn r caller s (finishFulfillment id r.request r.deposit caller cost s).2 ↔
      cost ≤ r.deposit.saturatingAdd r.request.fee ∨
        ∃ e, C.currency.transfer s.ledger C.accountId (C.addressMapping caller) cost =
          .error e := by
  obtain ⟨s₁, hfinish, hledger, herase⟩ :=
    finishFulfillment_state id r.request r.deposit caller cost s
  generalize (finishFulfillment id r.request r.deposit caller cost s).2 = s' at hledger herase ⊢
  have hlocked : totalLocked s' = totalLocked s₁ := by rw [totalLocked, hledger, totalLocked]
  have hreceived := finishFulfill_received hrefund hcaller hfinish
  have hspends (hspent : (totalLocked s).val ≤ (totalLocked s').val + obligation r) :
      SpendsOwn r caller s s' := by
    refine ⟨hspent, ?_, covered_of_spent_le hr herase hspent⟩
    simp only [balanceOf, hlocked, hledger] at hreceived ⊢
    exact hreceived
  by_cases hcost : cost ≤ r.deposit.saturatingAdd r.request.fee
  · refine iff_of_true (hspends ?_) (.inl hcost)
    rw [hlocked]
    exact (finishFulfill_pays hcost hfinish).1
  · have hlt : (r.deposit.saturatingAdd r.request.fee).val < cost.val := by
      rw [Uint.le_iff_val] at hcost
      omega
    rw [finishFulfill_overspent (Uint.lt_iff_val.2 hlt), tryTransferOrLogError] at hfinish
    rcases ht : C.currency.transfer s.ledger C.accountId (C.addressMapping caller) cost
      with e | ledger
    · simp only [ht, Prod.mk.injEq] at hfinish
      obtain ⟨-, rfl⟩ := hfinish
      refine iff_of_true (hspends ?_) (.inr ⟨e, rfl⟩)
      rw [hlocked]
      exact Nat.le_add_right _ _
    · simp only [ht, Prod.mk.injEq] at hfinish
      obtain ⟨-, rfl⟩ := hfinish
      refine iff_of_false (fun hown => ?_) (by simp [hcost])
      have hspent := hown.spent_le
      have hpaid := C.currency.transfer_source hcaller.symm ht
      rw [hlocked] at hspent
      simp only [totalLocked, obligation] at hspent hpaid
      omega

end Finish

open Mock

/-- Two requests for block 3 are stored in that block, and the first is prepared. -/
def preparedFirst : List (RunEvent test) × State test :=
  replayed (twoRequests [.prepareFulfillment 0])

/-- The first request, as it is stored. -/
def firstRequest : RequestState test := stored (.lit 5) (.localVrf (.lit 3) (.lit 21))

/-- The state after `bob` fulfils the first request at this cost. -/
def finishedAt (cost : Balance test) : State test :=
  (finishFulfillment 0 firstRequest.request firstRequest.deposit bob cost preparedFirst.2).2

theorem finish_spends_own_first :
    preparedFirst.2.requests.lookup 0 = some firstRequest ∧
      SpendsOwn firstRequest bob preparedFirst.2 (finishedAt (.lit 4)) := by
  have hstored : preparedFirst.2.requests.lookup 0 = some firstRequest := by decide +kernel
  exact ⟨hstored, (finish_spends_own_iff hstored (by decide) (by decide)).2
    (.inl (by decide +kernel))⟩

theorem finish_overspends_first :
    Machine.Run (machine test) Careful preparedFirst.1 preparedFirst.2 ∧
      preparedFirst.2.requests.lookup 0 = some firstRequest ∧
      (totalLocked preparedFirst.2).val = 30 ∧ obligations preparedFirst.2 = 30 ∧
      (totalLocked (finishedAt (.lit 20))).val = 10 ∧ obligations (finishedAt (.lit 20)) = 15 ∧
      ¬ SpendsOwn firstRequest bob preparedFirst.2 (finishedAt (.lit 20)) := by
  have hbefore : (totalLocked preparedFirst.2).val = 30 := by decide +kernel
  have hafter : (totalLocked (finishedAt (.lit 20))).val = 10 := by decide +kernel
  have howes : obligation firstRequest = 15 := by decide +kernel
  refine ⟨run_replayed _ (by decide +kernel), by decide +kernel, hbefore, by decide +kernel,
    hafter, by decide +kernel, fun hown => ?_⟩
  have hspent := hown.spent_le
  omega

end Randomness

end Moonkit
