import Moonkit.Proofs.Availability
import Moonkit.Proofs.Solvency

/-!
# Every request is paid out once

As long as a request is stored, what was paid in for it and not yet paid out is exactly what the
pallet owes it. Removing it pays that out, or, where a fulfilment is finished with what was
returned before a fee increase, the part it knows of. Removing one request leaves the others'
requests, results and money alone.
-/

namespace Moonkit

namespace Randomness

variable {AccountId Hash Ledger : Type} {C : Config AccountId Hash Ledger}

/-- Every finished fulfilment of `id` was given what was stored under `id`. -/
def FinishedCurrent (h : List (RunEvent C)) (id : RequestId) : Prop :=
  ∀ e ∈ h, ∀ r, finishedArgs e = some (id, r) → e.before.requests.lookup id = some r

/-- What an event does to the storage and the money of one id. -/
inductive Moved (e : RunEvent C) (id : RequestId) : Prop
  | untouched (hl : e.after.requests.lookup id = e.before.requests.lookup id)
      (hin : paidInBy id e = 0) (hout : paidOutBy id e = 0)
  | opened (r : RequestState C) (hid : id = e.before.requestCount)
      (hr : e.after.requests.lookup id = some r) (hin : paidInBy id e = obligation r)
      (hout : paidOutBy id e = 0)
  | grown (r r' : RequestState C) (hr : e.before.requests.lookup id = some r)
      (hr' : e.after.requests.lookup id = some r')
      (hin : paidInBy id e = obligation r' - obligation r) (hout : paidOutBy id e = 0)
  | closed (r r₀ : RequestState C) (hr : e.before.requests.lookup id = some r)
      (hr' : e.after.requests.lookup id = none) (hin : paidInBy id e = 0)
      (hout : paidOutBy id e = obligation r₀) (hle : obligation r₀ ≤ obligation r)
      (hfin : finishedArgs e = some (id, r₀) ∨ r₀ = r)

variable {h : List (RunEvent C)} {s s' : State C} {op : Op C}
  {answer : Outcome DispatchError (Answer C)}

theorem paid_of_err {op : Op C} {e : DispatchError} (id : RequestId) :
    paidInBy id ⟨s, op, .err e, s'⟩ = 0 ∧ paidOutBy id ⟨s, op, .err e, s'⟩ = 0 := by
  obtain ⟨action, t⟩ := op
  cases action <;> exact ⟨rfl, rfl⟩

/-- A fee increase is owed in full: the account's balance has room for it. -/
theorem obligation_increase {r : RequestState C} {id : RequestId} {newFee : Balance C}
    {increase : ℕ} (hi : Covered h s) (hr : s.requests.lookup id = some r)
    (hf : newFee.val = r.request.fee.val + increase)
    (hroom : (totalLocked s).val + increase ≤ C.balanceMax) :
    obligation { r with request := { r.request with fee := newFee } }
      = obligation r + increase := by
  have hle : obligation r ≤ obligations s := Finmap.le_total hr
  have hcov := hi.covers
  simp only [obligation, Uint.saturatingAdd_val] at hle ⊢
  omega

theorem paidIn_cons (e : RunEvent C) (h : List (RunEvent C)) (id : RequestId) :
    paidIn (e :: h) id = paidInBy id e + paidIn h id := by
  simp only [paidIn, List.map_cons, List.sum_cons]

theorem paidOut_cons (e : RunEvent C) (h : List (RunEvent C)) (id : RequestId) :
    paidOut (e :: h) id = paidOutBy id e + paidOut h id := by
  simp only [paidOut, List.map_cons, List.sum_cons]

/-- Removing one request moves no money for another. -/
theorem paid_of_closed {e : RunEvent C} {id id' : RequestId} (hcl : closedId e = some id)
    (hne : id' ≠ id) : paidInBy id' e = 0 ∧ paidOutBy id' e = 0 := by
  obtain ⟨before, ⟨action, t⟩, answer, after⟩ := e
  rcases answer with a | e | m <;> cases action <;>
    simp only [closedId, Option.some.injEq, reduceCtorEq] at hcl
  · subst hcl
    exact ⟨rfl, if_neg (Ne.symm hne)⟩
  · subst hcl
    exact ⟨rfl, if_neg (Ne.symm hne)⟩

variable [DecidableEq AccountId]

theorem Effect.moved (hi : Covered h s) (ha : Careful h s op) (hp : PayeeOutside op)
    (hw : finishedArgs ⟨s, op, answer, s'⟩ ≠ none → s'.warnings = s.warnings)
    (he : Effect s op answer s') (id : RequestId) : Moved ⟨s, op, answer, s'⟩ id := by
  obtain ⟨-, -, hreq, hfin, hcost, -⟩ := ha
  cases he with
  | refused hl => exact .untouched rfl (paid_of_err id).1 (paid_of_err id).2
  | @requested t request r nextId ledger events hr hv hn ht =>
    by_cases hid : id = s.requestCount
    · subst hid
      have hne : C.addressMapping r.request.contractAddress ≠ C.accountId := by
        rw [hr]
        exact hreq
      have hpay := C.currency.transfer_dest hne ht
      refine .opened r rfl (Finmap.lookup_insert _) ?_ rfl
      simp only [paidInBy, totalLocked, obligation, if_true]
      omega
    · refine .untouched (Finmap.lookup_insert_of_ne _ hid) ?_ rfl
      simp only [paidInBy, if_neg (Ne.symm hid)]
  | @feeIncreased t caller id' feeIncrease newFee r ledger hr hc hf ht =>
    by_cases hid : id = id'
    · subst hid
      have hne : C.addressMapping caller ≠ C.accountId := hc ▸ hi.outside id r hr
      have hpay := C.currency.transfer_dest hne ht
      have hroom := (C.currency.freeBalance ledger C.accountId).le_max
      have hob := obligation_increase hi hr hf (by simp only [totalLocked]; omega)
      refine .grown r _ hr (Finmap.lookup_insert _) ?_ rfl
      rw [hob]
      simp only [paidInBy, totalLocked, if_true]
      omega
    · refine .untouched (Finmap.lookup_insert_of_ne _ hid) ?_ rfl
      simp only [paidInBy, if_neg (Ne.symm hid)]
  | prepared _ _ _ _ => exact .untouched rfl rfl rfl
  | @finished t id' request deposit caller cost ledger warnings hpay =>
    by_cases hid : id = id'
    · subst hid
      obtain ⟨hmem, hsome⟩ := hfin
      obtain ⟨r, hr⟩ := Option.isSome_iff_exists.1 hsome
      have hgrow := (hi.ids.prepared_grows id _ r hmem hr).obligation_le
      have hout := (finishFulfill_pays hcost hpay).2 (hw (by simp [finishedArgs])) hp.1 hp.2
      refine .closed r ⟨request, deposit⟩ hr (Finmap.lookup_erase _ _) rfl ?_ hgrow (.inl rfl)
      simp only [paidOutBy, totalLocked, obligation, if_true] at hout ⊢
      omega
    · refine .untouched (Finmap.lookup_erase_ne hid) rfl ?_
      simp only [paidOutBy, if_neg (Ne.symm hid)]
  | @expired t caller id' r ledger hr hpay =>
    by_cases hid : id = id'
    · subst hid
      have hout := (executeExpiration_pays (hi.outside id r hr) hpay).2 hp
      refine .closed r r hr (Finmap.lookup_erase _ _) rfl ?_ (le_refl _) (.inr rfl)
      simp only [paidOutBy, totalLocked, if_true] at hout ⊢
      omega
    · refine .untouched (Finmap.lookup_erase_ne hid) rfl ?_
      simp only [paidOutBy, if_neg (Ne.symm hid)]
  | babeSet _ => exact .untouched rfl rfl rfl
  | blockStarted _ => exact .untouched rfl rfl rfl
  | blockEnded => exact .untouched rfl rfl rfl
  | elsewhere => exact .untouched rfl rfl rfl

/-- What was paid in and out agrees with what is stored. -/
structure Settled (h : List (RunEvent C)) (s : State C) : Prop where
  covered : Covered h s
  fresh : ∀ id, s.requestCount.val ≤ id.val → paidIn h id = 0 ∧ paidOut h id = 0
  owed : ∀ id r, s.requests.lookup id = some r → paidIn h id = paidOut h id + obligation r
  closed_le : ∀ id, s.requests.lookup id = none → paidOut h id ≤ paidIn h id
  closed_eq : ∀ id, s.requests.lookup id = none → FinishedCurrent h id →
    paidOut h id = paidIn h id

omit [DecidableEq AccountId] in
theorem Settled.step {e : RunEvent C} (hi : Settled h e.before) (hm : ∀ id, Moved e id)
    (hc : Covered (e :: h) e.after) (hle : e.before.requestCount ≤ e.after.requestCount) :
    Settled (e :: h) e.after := by
  rw [Uint.le_iff_val] at hle
  refine ⟨hc, fun id hid => ?_, fun id r' hr' => ?_, fun id hl => ?_, fun id hl hcur => ?_⟩
  · rw [paidIn_cons, paidOut_cons]
    rcases hm id with ⟨hl, hin, hout⟩ | ⟨r, rfl, hr, hin, hout⟩ | ⟨r, r', hr, hr', hin, hout⟩ |
      ⟨r, r₀, hr, hr', hin, hout, hle', hfin⟩
    · have := hi.fresh id (hle.trans hid)
      omega
    · exact absurd (hc.ids.stored_lt _ r hr) (not_lt_of_ge hid)
    · exact absurd (hi.covered.ids.stored_lt _ r hr) (not_lt_of_ge (hle.trans hid))
    · exact absurd (hi.covered.ids.stored_lt _ r hr) (not_lt_of_ge (hle.trans hid))
  · rw [paidIn_cons, paidOut_cons]
    rcases hm id with ⟨hl, hin, hout⟩ | ⟨r, rfl, hr, hin, hout⟩ | ⟨r, r₁, hr, hr₁, hin, hout⟩ |
      ⟨r, r₀, hr, hr₀, hin, hout, hle', hfin⟩
    · have := hi.owed id r' (hl ▸ hr')
      omega
    · have := hi.fresh _ (le_refl _)
      rw [hr, Option.some.injEq] at hr'
      subst hr'
      omega
    · have := hi.owed id r hr
      rw [hr₁, Option.some.injEq] at hr'
      subst hr'
      omega
    · rw [hr₀] at hr'
      simp at hr'
  · rw [paidIn_cons, paidOut_cons]
    rcases hm id with ⟨hl', hin, hout⟩ | ⟨r, rfl, hr, hin, hout⟩ | ⟨r, r₁, hr, hr₁, hin, hout⟩ |
      ⟨r, r₀, hr, hr₀, hin, hout, hle', hfin⟩
    · have := hi.closed_le id (hl' ▸ hl)
      omega
    · simp [hr] at hl
    · simp [hr₁] at hl
    · have := hi.owed id r hr
      omega
  · rw [paidIn_cons, paidOut_cons]
    have hcur' : FinishedCurrent h id := fun e' he' => hcur e' (List.mem_cons_of_mem _ he')
    rcases hm id with ⟨hl', hin, hout⟩ | ⟨r, rfl, hr, hin, hout⟩ | ⟨r, r₁, hr, hr₁, hin, hout⟩ |
      ⟨r, r₀, hr, hr₀, hin, hout, hle', hfin⟩
    · have := hi.closed_eq id (hl' ▸ hl) hcur'
      omega
    · simp [hr] at hl
    · simp [hr₁] at hl
    · have howed := hi.owed id r hr
      have hsame : r₀ = r := by
        rcases hfin with hfin | rfl
        · have hcurrent := hcur e List.mem_cons_self r₀ hfin
          rw [hr, Option.some.injEq] at hcurrent
          exact hcurrent.symm
        · rfl
      subst hsame
      omega

theorem settling_warnings {s : State C} {op : Op C} (ha : RefundsSucceed s op)
    (hf : finishedArgs ⟨s, op, (exec s op).1, (exec s op).2⟩ ≠ none) :
    (exec s op).2.warnings = s.warnings := by
  obtain ⟨action, t⟩ := op
  cases action <;> first | exact ha | exact absurd rfl hf

theorem settled_of_run (hr : Machine.Run (machine C) Settling h s) : Settled h s := by
  refine Machine.Run.invariant Settled (fun s hg => ?_) (fun h s op hr hi ha => ?_) hr
  · refine ⟨.genesis hg, by simp [paidIn, paidOut], fun id r hr => ?_, by simp [paidIn, paidOut],
      by simp [paidIn, paidOut]⟩
    rw [hg.1] at hr
    simp at hr
  · have he := exec_effect ha.completes
    exact hi.step (fun id => he.moved hi.covered ha.toCareful ha.payee
      (settling_warnings ha.refunds) id) (hi.covered.step ha.toCareful he) he.requestCount_le

/-- Removing one request leaves the others' requests and randomness alone, and the whole result
of every other key. -/
theorem Effect.closed_leaves_others {id id' : RequestId} {r' : RequestState C}
    (he : Effect s op answer s') (hf : FinishesStored s op)
    (hc : Counted s.requests s.randomnessResults) (hc' : Counted s'.requests s'.randomnessResults)
    (hcl : closedId ⟨s, op, answer, s'⟩ = some id) (hne : id' ≠ id)
    (hr' : s.requests.lookup id' = some r') :
    s'.requests.lookup id' = some r' ∧ ∃ result result',
      s.randomnessResults.lookup (resultKey r') = some result ∧
      s'.randomnessResults.lookup (resultKey r') = some result' ∧
      result'.randomness = result.randomness ∧
      ((∀ r, s.requests.lookup id = some r → resultKey r ≠ resultKey r') → result' = result) := by
  have hleave : ∃ r key, s.requests.lookup id = some r ∧ resultKey r = key ∧
      s'.requests = s.requests.erase id ∧
      s'.randomnessResults = Results.leave s.randomnessResults key := by
    cases he with
    | @finished t id₀ request deposit caller cost ledger warnings hp =>
      simp only [closedId, Option.some.injEq] at hcl
      subst hcl
      obtain ⟨r, hr, hinfo⟩ := hf.lookup
      exact ⟨r, _, hr, congrArg RequestInfo.intoType hinfo, rfl, rfl⟩
    | @expired t caller id₀ r ledger hr hp =>
      simp only [closedId, Option.some.injEq] at hcl
      subst hcl
      exact ⟨r, _, hr, rfl, rfl, rfl⟩
    | @refused op e ledger hl =>
      obtain ⟨action, t⟩ := op
      cases action <;> simp [closedId] at hcl
    | _ => simp [closedId] at hcl
  obtain ⟨r, key, hr, rfl, hreq, hres⟩ := hleave
  have hstored : s'.requests.lookup id' = some r' := by
    rw [hreq, Finmap.lookup_erase_ne hne, hr']
  obtain ⟨result, hl, -⟩ := hc.lookup_key hr'
  obtain ⟨result', hl', -⟩ := hc'.lookup_key hstored
  refine ⟨hstored, result, result', hl, hl', ?_, fun hkeys => ?_⟩
  · by_cases hk : resultKey r' = resultKey r
    · rw [hres, hk, Results.lookup_leave_self, ← hk, hl, Option.bind_some] at hl'
      exact decrement_randomness hl'
    · rw [hres, Results.lookup_leave_of_ne hk, hl, Option.some.injEq] at hl'
      rw [hl']
  · rw [hres, Results.lookup_leave_of_ne (Ne.symm (hkeys r hr)), hl, Option.some.injEq] at hl'
    exact hl'.symm

/-- **Paid out once.** No request is paid more than was paid in for it; once it is removed it was
paid all of it, unless its fulfilment was finished with less than was stored; and removing a
request leaves the requests, the results and the money of the others. -/
theorem paid_out_at_most_once (hr : Machine.Run (machine C) Settling h s) :
    (∀ id, paidOut h id ≤ paidIn h id) ∧
    (∀ id, s.requests.lookup id = none → FinishedCurrent h id → paidOut h id = paidIn h id) ∧
    ∀ e ∈ h, ∀ id id' r', closedId e = some id → id' ≠ id →
      e.before.requests.lookup id' = some r' →
      e.after.requests.lookup id' = some r' ∧ paidInBy id' e = 0 ∧ paidOutBy id' e = 0 ∧
      obligations e.after ≤ (totalLocked e.after).val ∧ ∃ result result',
        e.before.randomnessResults.lookup (resultKey r') = some result ∧
        e.after.randomnessResults.lookup (resultKey r') = some result' ∧
        result'.randomness = result.randomness ∧
        ((∀ r, e.before.requests.lookup id = some r → resultKey r ≠ resultKey r') →
          result' = result) := by
  have hi := settled_of_run hr
  refine ⟨fun id => ?_, hi.closed_eq, fun e he id id' r' hcl hne hr' => ?_⟩
  · rcases hl : s.requests.lookup id with _ | r
    · exact hi.closed_le id hl
    · have := hi.owed id r hl
      omega
  · obtain ⟨h', hrun, ha, heff⟩ := effect_of_mem (fun _ _ _ ha => ha.completes) hr he
    have hset := settled_of_run hrun
    have hfin := hset.covered.ids.finishesStored ha.finishes
    have hcount := counted_of_run (fun _ _ _ ha => ha.completes)
      (fun _ _ _ hi ha => hi.finishesStored ha.finishes) hrun
    have hcount' := counted_step hset.covered.ids hcount hfin heff
    obtain ⟨hin, hout⟩ := paid_of_closed hcl hne
    obtain ⟨hstored, hresult⟩ := heff.closed_leaves_others hfin hcount hcount' hcl hne hr'
    exact ⟨hstored, hin, hout, (hset.covered.step ha.toCareful heff).covers, hresult⟩

theorem paid_out_at_most_once_sampled :
    paidIn Mock.sampled.1 0 = 16 ∧ paidOut Mock.sampled.1 0 = 16 ∧
      ∀ id, paidOut Mock.sampled.1 id ≤ paidIn Mock.sampled.1 id := by
  have hres := paid_out_at_most_once (Mock.run_replayed Mock.sample (by decide +kernel))
  exact ⟨by decide +kernel, by decide +kernel, hres.1⟩

section Unguarded

/-- What callers and the runtime promise, with one finished fulfilment for each prepared one but
not that the request is still stored by then, nor that nobody else debits the account. -/
def Unguarded (h : List (RunEvent C)) (s : State C) (op : Op C) : Prop :=
  Completes s op ∧ RollsBack op ∧ RequesterOutside op ∧ PayeeOutside op ∧ FinishesOnce h op
    ∧ CostCovered op ∧ RefundsSucceed s op

instance (h : List (RunEvent C)) (s : State C) (op : Op C) : Decidable (Unguarded h s op) :=
  inferInstanceAs (Decidable (_ ∧ _))

open Mock

/-- A callback of the first request increases its fee. -/
def increased : List (RunEvent test) × State test :=
  replayed (twoRequests [.prepareFulfillment 0, .increaseRequestFee alice 0 (.lit 1),
    finishFirst (.lit 5)])

/-- The largest balance on one account. -/
def onlyHolder (holder : H160) : Mock.Ledger :=
  ⟨⟨2 ^ 128 - 1, le_refl _⟩, fun account =>
    if account = holder then ⟨2 ^ 128 - 1, le_refl _⟩ else 0⟩

/-- The pallet's account is debited, and `alice` uses the money to increase the fee of the first
request until deposit and fee are above the largest balance. -/
def debited : List (RunEvent test) × State test :=
  replayed (twoRequests [.elsewhere (env (.lit 1) (.lit 3)) (onlyHolder alice),
    .increaseRequestFee alice 0 (.lit (2 ^ 128 - 11)),
    .elsewhere (env (.lit 1) (.lit 3)) (onlyHolder palletAccount),
    .prepareFulfillment 0, finishFirst (.lit (2 ^ 128 - 6))])

/-- Fulfilled a second time, a request is paid twice and takes the result away from another; an
increase that the finished fulfilment does not know of is never paid out; and neither is what
deposit and fee have above the largest balance. -/
theorem unguarded_finish_pays_wrong :
    (Machine.Run (machine test) Unguarded nested.1 nested.2 ∧
      paidIn nested.1 0 < paidOut nested.1 0 ∧
      (nested.2.requests.lookup (.lit 1)).isSome ∧
      nested.2.randomnessResults.lookup (.localVrf (.lit 3)) = none) ∧
    (Machine.Run (machine test) Unguarded increased.1 increased.2 ∧
      increased.2.requests.lookup 0 = none ∧ finished increased.1 = prepared increased.1 ∧
      paidOut increased.1 0 < paidIn increased.1 0) ∧
    (Machine.Run (machine test) Unguarded debited.1 debited.2 ∧
      debited.2.requests.lookup 0 = none ∧ finished debited.1 = prepared debited.1 ∧
      paidOut debited.1 0 < paidIn debited.1 0) := by
  refine ⟨⟨run_replayed _ ?_, ?_, ?_, ?_⟩, ⟨run_replayed _ ?_, ?_, ?_, ?_⟩, run_replayed _ ?_, ?_,
    ?_, ?_⟩ <;> decide +kernel

end Unguarded

end Randomness

end Moonkit
