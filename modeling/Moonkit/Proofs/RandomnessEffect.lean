import Moonkit.Proofs.Results

/-!
# What one operation does

`Effect s op answer s'` lists what an operation that does not panic can do to the pallet, guards
included, and `exec_effect` says that `exec` does nothing else. Every invariant of a run is a case
analysis of `Effect`; none unfolds a function of the pallet again.
-/

namespace Moonkit

namespace Randomness

variable {AccountId Hash Ledger : Type} {C : Config AccountId Hash Ledger}

/-- What an operation does that does not panic. -/
inductive Effect [DecidableEq AccountId] (s : State C) :
    Op C → Outcome DispatchError (Answer C) → State C → Prop
  | refused {op : Op C} {e : DispatchError} {ledger : Ledger}
      (hl : op.transactional = true → ledger = s.ledger) :
      Effect s op (.err e) { s with ledger := ledger }
  | requested {t : Bool} {request : Request C (RequestType C)} {r : RequestState C}
      {nextId : RequestId} {ledger : Ledger} {events : List (Event C)}
      (hr : r = ⟨request.withInfo (request.info.intoInfo s), s.env.constants.deposit⟩)
      (hv : r.request.validate s = (.ok (), s))
      (hn : nextId.val = s.requestCount.val + 1)
      (ht : C.currency.transfer s.ledger (C.addressMapping r.request.contractAddress) C.accountId
        (r.deposit.saturatingAdd r.request.fee) = .ok ledger) :
      Effect s ⟨.requestRandomness request, t⟩ (.ok (.requestId s.requestCount))
        { s with
          requests := s.requests.insert s.requestCount r
          requestCount := nextId
          randomnessResults := Results.join s.randomnessResults r.request.info.intoType
          ledger := ledger
          events := events }
  | feeIncreased {t : Bool} {caller : H160} {id : RequestId} {feeIncrease newFee : Balance C}
      {r : RequestState C} {ledger : Ledger} (hr : s.requests.lookup id = some r)
      (hc : caller = r.request.contractAddress)
      (hf : newFee.val = r.request.fee.val + feeIncrease.val)
      (ht : C.currency.transfer s.ledger (C.addressMapping caller) C.accountId feeIncrease
        = .ok ledger) :
      Effect s ⟨.increaseRequestFee caller id feeIncrease, t⟩ (.ok .done)
        { s with
          requests := s.requests.insert id { r with request := { r.request with fee := newFee } }
          ledger := ledger
          events := s.events ++ [.requestFeeIncreased id newFee] }
  | prepared {t : Bool} {id : RequestId} {r : RequestState C} {result : RandomnessResult Hash}
      {randomness : Hash} (hr : s.requests.lookup id = some r)
      (hd : r.request.canBeFulfilled s = true)
      (hk : s.randomnessResults.lookup r.request.info.intoType = some result)
      (hf : result.randomness = some randomness) :
      Effect s ⟨.prepareFulfillment id, t⟩
        (.ok (.fulfillArgs ⟨r.request, r.deposit,
          Request.computeRandomWords C randomness r.request.salt r.request.numWords⟩)) s
  | finished {t : Bool} {id : RequestId} {request : Request C (RequestInfo C)}
      {deposit : Balance C} {caller : H160} {cost : Balance C} {ledger : Ledger}
      {warnings : List Warning}
      (hp : request.finishFulfill deposit caller cost s
        = (.ok (), { s with ledger := ledger, warnings := warnings })) :
      Effect s ⟨.finishFulfillment id request deposit caller cost, t⟩ (.ok .done)
        { s with
          requests := s.requests.erase id
          randomnessResults := Results.leave s.randomnessResults request.info.intoType
          ledger := ledger
          warnings := warnings
          events := s.events ++ [.requestFulfilled id] }
  | expired {t : Bool} {caller : H160} {id : RequestId} {r : RequestState C} {ledger : Ledger}
      (hr : s.requests.lookup id = some r)
      (hp : r.executeExpiration (C.addressMapping caller) s
        = (.ok (), { s with ledger := ledger })) :
      Effect s ⟨.executeRequestExpiration caller id, t⟩ (.ok .done)
        { s with
          requests := s.requests.erase id
          randomnessResults := Results.leave s.randomnessResults r.request.info.intoType
          ledger := ledger
          events := s.events ++ [.requestExpirationExecuted id] }
  | babeSet {t : Bool} {results : Results C} {warnings : List Warning}
      (hres : results = if s.relayEpoch < s.env.epochIndex then
        s.env.epochRandomness.elim s.randomnessResults
          (Results.fill s.randomnessResults (.babeEpoch s.env.epochIndex))
        else s.randomnessResults) :
      Effect s ⟨.setBabeRandomnessResults .none, t⟩ (.ok .done)
        { s with
          randomnessResults := results
          warnings := warnings
          relayEpoch := s.env.epochIndex
          inherentIncluded := true }
  | blockStarted {t : Bool} {env : Env C} {randomness : Hash} {results : Results C}
      (hres : results = if s.notFirstBlock then
        Results.fill s.randomnessResults (.localVrf env.blockNumber) randomness
        else s.randomnessResults) :
      Effect s ⟨.newBlock env, t⟩ (.ok .done)
        { s with
          notFirstBlock := true
          localVrfOutput := some randomness
          randomnessResults := results
          env := env }
  | blockEnded {t : Bool} {previous : Hash} :
      Effect s ⟨.endBlock, t⟩ (.ok .done)
        { s with inherentIncluded := false, previousLocalVrfOutput := previous }
  | elsewhere {t : Bool} {env : Env C} {ledger : Ledger} :
      Effect s ⟨.elsewhere env ledger, t⟩ (.ok .done) { s with env := env, ledger := ledger }

section Functions

theorem transfer_ok {s : State C} {source dest : AccountId} {amount : Balance C} {ledger : Ledger}
    (h : C.currency.transfer s.ledger source dest amount = .ok ledger) :
    transfer source dest amount s = (.ok (), { s with ledger := ledger }) := by
  simp only [transfer, h]

theorem transfer_error {s : State C} {source dest : AccountId} {amount : Balance C}
    {e : TransferError} (h : C.currency.transfer s.ledger source dest amount = .error e) :
    transfer source dest amount s = (.err (.token e), s) := by
  simp only [transfer, h]

theorem validate_cases (r : Request C (RequestInfo C)) (s : State C) :
    r.validate s = (.ok (), s) ∨ ∃ e, r.validate s = (.err e, s) := by
  unfold Request.validate
  simp only [Call.get_bind, Call.ensure_bind]
  split_ifs
  · rcases r.info with ⟨_, _⟩ | ⟨blockDue, _⟩
    · exact .inl rfl
    · simp only
      rcases s.env.blockNumber.checkedAdd s.env.constants.maxBlockDelay with _ | latest
      · exact .inr ⟨_, rfl⟩
      · simp only [Call.okOr_some, Call.pure_bind_apply, Call.ensure_bind]
        split_ifs
        · rcases s.env.blockNumber.checkedAdd s.env.constants.minBlockDelay with _ | earliest
          · exact .inr ⟨_, rfl⟩
          · simp only [Call.okOr_some, Call.pure_bind_apply, Call.ensure]
            split_ifs
            · exact .inl rfl
            · exact .inr ⟨_, rfl⟩
        · exact .inr ⟨_, rfl⟩
  · exact .inr ⟨_, rfl⟩
  · exact .inr ⟨_, rfl⟩

/-- A request for a block that is accepted is for a block after the minimal delay. -/
theorem validate_localVrf {r : Request C (RequestInfo C)} {s : State C}
    {block expires : BlockNumber C} (hinfo : r.info = .localVrf block expires)
    (hv : r.validate s = (.ok (), s)) :
    s.env.blockNumber.val + s.env.constants.minBlockDelay.val ≤ block.val := by
  unfold Request.validate at hv
  rw [Call.get_bind] at hv
  obtain ⟨⟨⟩, s₁, -, hv⟩ := Call.bind_eq_ok.1 hv
  obtain ⟨⟨⟩, s₂, -, hv⟩ := Call.bind_eq_ok.1 hv
  rw [hinfo] at hv
  obtain ⟨latest, s₃, -, hv⟩ := Call.bind_eq_ok.1 hv
  obtain ⟨⟨⟩, s₄, -, hv⟩ := Call.bind_eq_ok.1 hv
  obtain ⟨earliest, s₅, hearliest, hv⟩ := Call.bind_eq_ok.1 hv
  rw [← Uint.checkedAdd_eq_some.1 (Call.okOr_eq_ok.1 hearliest).1]
  exact (Call.ensure_eq_ok.1 hv).1

theorem emit_event (r : Request C (RequestInfo C)) (id : RequestId) (s : State C) :
    ∃ events, r.emitRandomnessRequestedEvent id s = (.ok (), { s with events := events }) := by
  unfold Request.emitRandomnessRequestedEvent
  rcases r.info with ⟨_, _⟩ | ⟨_, _⟩ <;> exact ⟨_, rfl⟩

theorem decrementResult_apply (key : RequestType C) (s : State C) :
    decrementResult key s
      = (.ok (), { s with randomnessResults := Results.leave s.randomnessResults key }) := by
  unfold decrementResult Results.leave
  have ht : takeResult key s = (.ok (s.randomnessResults.lookup key),
      { s with randomnessResults := s.randomnessResults.erase key }) := rfl
  rw [Call.bind_ok ht]
  rcases s.randomnessResults.lookup key with _ | result
  · rfl
  · simp only [Option.bind_some]
    rcases result.decrementRequestCount with _ | newResult
    · rfl
    · simp only [insertResult, Call.modify_apply, insert_erase_self]

theorem requestRandomness_cases [DecidableEq AccountId] (request : Request C (RequestType C))
    (s : State C) (t : Bool) :
    (∃ e, requestRandomness request s = (.err e, s)) ∨
      ∃ id s', requestRandomness request s = (.ok id, s')
        ∧ Effect s ⟨.requestRandomness request, t⟩ (.ok (.requestId id)) s' := by
  unfold requestRandomness
  rw [Call.get_bind]
  set q := request.withInfo (request.info.intoInfo s) with hq
  set d := s.env.constants.deposit with hd
  rcases validate_cases q s with hv | ⟨e, hv⟩
  · have hnew : RequestState.new q s = (.ok ⟨q, d⟩, s) := by
      unfold RequestState.new
      rw [Call.bind_ok hv]
      rfl
    rw [Call.bind_ok hnew]
    simp only
    rcases hn : s.requestCount.checkedAdd (.lit 1) with _ | nextId
    · exact .inl ⟨_, rfl⟩
    rw [Call.okOr_some, Call.pure_bind_apply]
    rcases ht : C.currency.transfer s.ledger (C.addressMapping q.contractAddress) C.accountId
        (d.saturatingAdd q.fee) with e | ledger
    · exact .inl ⟨_, Call.bind_err (transfer_error ht)⟩
    right
    have hk : takeResult q.info.intoType { s with ledger := ledger }
        = (.ok (s.randomnessResults.lookup q.info.intoType), { s with
          ledger := ledger, randomnessResults := s.randomnessResults.erase q.info.intoType }) := rfl
    obtain ⟨events, he⟩ := emit_event q s.requestCount { s with
      ledger := ledger
      requestCount := nextId
      randomnessResults := Results.join s.randomnessResults q.info.intoType }
    refine ⟨s.requestCount, { s with
      requests := s.requests.insert s.requestCount ⟨q, d⟩
      requestCount := nextId
      randomnessResults := Results.join s.randomnessResults q.info.intoType
      ledger := ledger
      events := events }, ?_, .requested (by rw [hq, hd]) hv (Uint.checkedAdd_eq_some.1 hn) ht⟩
    rw [Call.bind_ok (transfer_ok ht), Call.bind_ok hk]
    rcases hl : s.randomnessResults.lookup q.info.intoType with _ | existing
    · simp only [Results.join, hl, Option.elim_none] at he ⊢
      simp only [insertResult, Call.modify_bind, insert_erase_self]
      rw [Call.bind_ok he]
      rfl
    · simp only [Results.join, hl, Option.elim_some] at he ⊢
      simp only [insertResult, Call.modify_bind, insert_erase_self]
      rw [Call.bind_ok he]
      rfl
  · refine .inl ⟨e, Call.bind_err ?_⟩
    unfold RequestState.new
    exact Call.bind_err hv

theorem increaseFee_cases (r : RequestState C) (caller : H160) (feeIncrease : Balance C)
    (s : State C) :
    (∃ e, r.increaseFee caller feeIncrease s = (.err e, s)) ∨
      ∃ newFee ledger, caller = r.request.contractAddress
        ∧ newFee.val = r.request.fee.val + feeIncrease.val
        ∧ C.currency.transfer s.ledger (C.addressMapping caller) C.accountId feeIncrease
          = .ok ledger
        ∧ r.increaseFee caller feeIncrease s
          = (.ok (newFee, { r with request := { r.request with fee := newFee } }),
            { s with ledger := ledger }) := by
  unfold RequestState.increaseFee
  rw [Call.ensure_bind]
  split_ifs with hc
  swap
  · exact .inl ⟨_, rfl⟩
  rcases hf : r.request.fee.checkedAdd feeIncrease with _ | newFee
  · exact .inl ⟨_, rfl⟩
  rw [Call.okOr_some, Call.pure_bind_apply]
  rcases ht : C.currency.transfer s.ledger (C.addressMapping caller) C.accountId feeIncrease
    with e | ledger
  · exact .inl ⟨_, Call.bind_err (transfer_error ht)⟩
  · refine .inr ⟨newFee, ledger, hc, Uint.checkedAdd_eq_some.1 hf, rfl, ?_⟩
    rw [Call.bind_ok (transfer_ok ht)]
    rfl

theorem increaseRequestFee_cases [DecidableEq AccountId] (caller : H160) (id : RequestId)
    (feeIncrease : Balance C) (s : State C) (t : Bool) :
    (∃ e, increaseRequestFee caller id feeIncrease s = (.err e, s)) ∨
      ∃ s', increaseRequestFee caller id feeIncrease s = (.ok (), s')
        ∧ Effect s ⟨.increaseRequestFee caller id feeIncrease, t⟩ (.ok .done) s' := by
  unfold increaseRequestFee
  rw [Call.get_bind]
  rcases hr : s.requests.lookup id with _ | r
  · exact .inl ⟨_, rfl⟩
  rw [Call.okOr_some, Call.pure_bind_apply]
  rcases increaseFee_cases r caller feeIncrease s with ⟨e, he⟩ | ⟨newFee, ledger, hc, hf, ht, he⟩
  · exact .inl ⟨e, Call.bind_err he⟩
  · refine .inr ⟨_, ?_, .feeIncreased hr hc hf ht⟩
    rw [Call.bind_ok he]
    rfl

theorem getRandomWords_cases (r : Request C (RequestInfo C)) (s : State C) :
    (∃ e, r.getRandomWords s = (.err e, s)) ∨
      ∃ result randomness, r.canBeFulfilled s = true
        ∧ s.randomnessResults.lookup r.info.intoType = some result
        ∧ result.randomness = some randomness
        ∧ r.getRandomWords s
          = (.ok (Request.computeRandomWords C randomness r.salt r.numWords), s) := by
  unfold Request.getRandomWords
  rw [Call.get_bind, Call.ensure_bind]
  split_ifs with hd
  swap
  · exact .inl ⟨_, rfl⟩
  rcases s.randomnessResults.lookup r.info.intoType with _ | result
  · exact .inl ⟨_, rfl⟩
  rw [Call.okOr_some, Call.pure_bind_apply]
  rcases hf : result.randomness with _ | randomness
  · exact .inl ⟨_, rfl⟩
  · exact .inr ⟨result, randomness, hd, rfl, hf, rfl⟩

theorem prepareFulfillment_cases [DecidableEq AccountId] (id : RequestId) (s : State C)
    (t : Bool) :
    (∃ e, prepareFulfillment id s = (.err e, s)) ∨
      ∃ args, prepareFulfillment id s = (.ok args, s)
        ∧ Effect s ⟨.prepareFulfillment id, t⟩ (.ok (.fulfillArgs args)) s := by
  unfold prepareFulfillment
  rw [Call.get_bind]
  rcases hr : s.requests.lookup id with _ | r
  · exact .inl ⟨_, rfl⟩
  rw [Call.okOr_some, Call.pure_bind_apply]
  unfold RequestState.prepareFulfill
  rcases getRandomWords_cases r.request s with ⟨e, he⟩ | ⟨result, randomness, hd, hk, hf, hw⟩
  · exact .inl ⟨e, Call.bind_err he⟩
  · refine .inr ⟨_, ?_, .prepared hr hd hk hf⟩
    rw [Call.bind_ok hw]
    rfl

theorem tryTransfer_apply (source dest : AccountId) (amount : Balance C) (s : State C) :
    ∃ ledger warnings, tryTransferOrLogError source dest amount s
      = (.ok (), { s with ledger := ledger, warnings := warnings }) := by
  unfold tryTransferOrLogError
  rcases C.currency.transfer s.ledger source dest amount with e | ledger
  · exact ⟨s.ledger, _, rfl⟩
  · exact ⟨ledger, s.warnings, rfl⟩

theorem finishFulfill_apply (request : Request C (RequestInfo C)) (deposit : Balance C)
    (caller : H160) (cost : Balance C) (s : State C) :
    ∃ ledger warnings, request.finishFulfill deposit caller cost s
      = (.ok (), { s with ledger := ledger, warnings := warnings }) := by
  unfold Request.finishFulfill
  split_ifs
  · rcases (deposit.saturatingAdd request.fee).checkedSub cost with _ | excess
    · exact tryTransfer_apply _ _ _ _
    · exact tryTransfer_apply _ _ _ _
  · rcases (deposit.saturatingAdd request.fee).checkedSub cost with _ | excess
    · exact tryTransfer_apply _ _ _ _
    · obtain ⟨l₁, w₁, h₁⟩ := tryTransfer_apply C.accountId
        (C.addressMapping request.refundAddress) excess s
      obtain ⟨l₂, w₂, h₂⟩ := tryTransfer_apply C.accountId (C.addressMapping caller) cost
        { s with ledger := l₁, warnings := w₁ }
      exact ⟨l₂, w₂, (Call.bind_ok h₁).trans h₂⟩

theorem finishFulfillment_cases [DecidableEq AccountId] (id : RequestId)
    (request : Request C (RequestInfo C)) (deposit : Balance C) (caller : H160)
    (cost : Balance C) (s : State C) (t : Bool) :
    ∃ s', finishFulfillment id request deposit caller cost s = (.ok (), s')
      ∧ Effect s ⟨.finishFulfillment id request deposit caller cost, t⟩ (.ok .done) s' := by
  obtain ⟨ledger, warnings, hp⟩ := finishFulfill_apply request deposit caller cost s
  refine ⟨_, ?_, .finished hp⟩
  unfold finishFulfillment
  rw [Call.bind_ok hp, Call.bind_ok (decrementResult_apply _ _)]
  rfl

theorem executeExpiration_cases [DecidableEq AccountId] (r : RequestState C) (caller : AccountId)
    (s : State C) :
    ∃ ledger, (∃ e, r.executeExpiration caller s = (.err e, { s with ledger := ledger }))
      ∨ r.executeExpiration caller s = (.ok (), { s with ledger := ledger }) := by
  unfold RequestState.executeExpiration
  rw [Call.get_bind, Call.ensure_bind]
  by_cases hx : r.request.isExpired s = true
  swap
  · rw [if_neg hx]
    exact ⟨s.ledger, .inl ⟨_, rfl⟩⟩
  rw [if_pos hx]
  split_ifs with hc
  · rcases ht : C.currency.transfer s.ledger C.accountId
      (C.addressMapping r.request.contractAddress) (r.deposit.saturatingAdd r.request.fee)
      with e | ledger
    · exact ⟨s.ledger, .inl ⟨_, transfer_error ht⟩⟩
    · exact ⟨ledger, .inr (transfer_ok ht)⟩
  · rcases ht : C.currency.transfer s.ledger C.accountId
      (C.addressMapping r.request.contractAddress) r.deposit with e | ledger
    · exact ⟨s.ledger, .inl ⟨_, Call.bind_err (transfer_error ht)⟩⟩
    · rw [Call.bind_ok (transfer_ok ht)]
      rcases ht' : C.currency.transfer ledger C.accountId caller r.request.fee with e | ledger'
      · exact ⟨ledger, .inl ⟨_, transfer_error ht'⟩⟩
      · exact ⟨ledger', .inr (transfer_ok ht')⟩

theorem executeRequestExpiration_cases [DecidableEq AccountId] (caller : H160) (id : RequestId)
    (s : State C) (t : Bool) :
    (∃ e ledger, executeRequestExpiration caller id s = (.err e, { s with ledger := ledger })) ∨
      ∃ s', executeRequestExpiration caller id s = (.ok (), s')
        ∧ Effect s ⟨.executeRequestExpiration caller id, t⟩ (.ok .done) s' := by
  unfold executeRequestExpiration
  rw [Call.get_bind]
  rcases hr : s.requests.lookup id with _ | r
  · exact .inl ⟨_, s.ledger, rfl⟩
  rw [Call.okOr_some, Call.pure_bind_apply]
  obtain ⟨ledger, ⟨e, hp⟩ | hp⟩ := executeExpiration_cases r (C.addressMapping caller) s
  · exact .inl ⟨e, ledger, Call.bind_err hp⟩
  · refine .inr ⟨_, ?_, .expired hr hp⟩
    rw [Call.bind_ok hp, Call.bind_ok (decrementResult_apply _ _)]
    rfl

theorem setBabeRandomnessResults_cases [DecidableEq AccountId] (origin : RawOrigin AccountId)
    (s : State C) (t : Bool) :
    (∃ e, setBabeRandomnessResults origin s = (.err e, s)) ∨
      ∃ s', setBabeRandomnessResults origin s = (.ok (), s')
        ∧ Effect s ⟨.setBabeRandomnessResults origin, t⟩ (.ok .done) s' := by
  unfold setBabeRandomnessResults
  rw [Call.ensure_bind]
  split_ifs with ho
  swap
  · exact .inl ⟨_, rfl⟩
  subst ho
  refine .inr ?_
  simp only [Call.get_bind]
  by_cases hlt : s.relayEpoch < s.env.epochIndex
  · simp only [if_pos hlt]
    rcases hl : s.randomnessResults.lookup (.babeEpoch s.env.epochIndex) with _ | result
    · simp only [hl]
      refine ⟨_, rfl, .babeSet ?_⟩
      rcases s.env.epochRandomness with _ | randomness <;> simp [hlt, Results.fill, hl]
    · rcases hrand : s.env.epochRandomness with _ | randomness
      · simp only [hl]
        exact ⟨_, rfl, .babeSet (by simp [hlt, hrand])⟩
      · simp only [hl]
        exact ⟨_, rfl, .babeSet (by simp [hlt, hrand, Results.fill, hl])⟩
  · simp only [if_neg hlt]
    exact ⟨_, rfl, .babeSet (by simp [hlt])⟩

theorem findPreDigest_observes (s : State C) : ∀ (logs : List DigestItem)
    (blockAuthorVrfId : Option VrfId), Call.Observes (findPreDigest s logs blockAuthorVrfId)
  | [], _ => .panic _
  | item :: logs, blockAuthorVrfId => by
    unfold findPreDigest
    rcases item.asPreRuntime with _ | ⟨id, data⟩
    · exact findPreDigest_observes s logs blockAuthorVrfId
    · show Call.Observes (if id = vrfEngineId then _ else _)
      split_ifs
      · exact .bind (.expect _ _) fun vrfDigest => .pure _
      · exact .bind (.expect _ _) fun nimbusId => .bind (.expect _ _) fun vrfId =>
          findPreDigest_observes s logs (some vrfId)
      · exact findPreDigest_observes s logs blockAuthorVrfId

theorem getAndVerifyRandomness_observes : Call.Observes (getAndVerifyRandomness (C := C)) := by
  refine .bind .get fun s => .bind (findPreDigest_observes s _ _) fun ⟨vrfId, preDigest⟩ => ?_
  exact .bind (.expect _ _) fun _ => .bind (.assert _ _) fun _ => .bind (.assert _ _) fun _ =>
    .bind (.expect _ _) fun _ => .expect _ _

theorem verifyAndSetOutput_cases (s : State C) :
    (∃ m s', verifyAndSetOutput s = (.panic m, s')) ∨
      ∃ randomness, verifyAndSetOutput s = (.ok (), { s with
        localVrfOutput := some randomness
        randomnessResults :=
          Results.fill s.randomnessResults (.localVrf s.env.blockNumber) randomness }) := by
  have ho : Call.Observes
      (if s.env.fakeVrf then pure C.hashDefault else getAndVerifyRandomness (C := C)) := by
    split_ifs
    · exact .pure _
    · exact getAndVerifyRandomness_observes
  unfold verifyAndSetOutput
  rw [Call.get_bind]
  rcases ho s with ⟨randomness, hr⟩ | ⟨m, hr⟩
  · rw [Call.bind_ok hr, Call.modify_bind]
    refine .inr ⟨randomness, ?_⟩
    unfold Results.fill
    rcases hl : s.randomnessResults.lookup (.localVrf s.env.blockNumber) with _ | result <;>
      simp only [hl] <;> rfl
  · exact .inl ⟨m, s, Call.bind_panic hr⟩

theorem onInitialize_cases (s : State C) :
    (∃ m s', onInitialize s = (.panic m, s')) ∨
      ∃ randomness, onInitialize s = (.ok (), { s with
        notFirstBlock := true
        localVrfOutput := some randomness
        randomnessResults := if s.notFirstBlock then
          Results.fill s.randomnessResults (.localVrf s.env.blockNumber) randomness
          else s.randomnessResults }) := by
  unfold onInitialize
  rw [Call.get_bind]
  by_cases hb : s.notFirstBlock = true
  · simp only [if_pos hb]
    rcases verifyAndSetOutput_cases s with ⟨m, s', hv⟩ | ⟨randomness, hv⟩
    · exact .inl ⟨m, s', hv⟩
    · refine .inr ⟨randomness, ?_⟩
      rw [hv, hb]
  · simp only [if_neg hb]
    exact .inr ⟨C.hashDefault, rfl⟩

theorem onFinalize_cases (s : State C) :
    (∃ m s', onFinalize s = (.panic m, s')) ∨
      ∃ previous, onFinalize s
        = (.ok (), { s with inherentIncluded := false, previousLocalVrfOutput := previous }) := by
  unfold onFinalize
  rw [Call.get_bind, Call.modify_bind, Call.assert_bind]
  split_ifs
  · rcases s.localVrfOutput with _ | previous
    · exact .inl ⟨_, _, rfl⟩
    · exact .inr ⟨previous, rfl⟩
  · exact .inl ⟨_, _, rfl⟩

end Functions

/-- An operation that does not panic does one of the listed things. -/
theorem exec_effect [DecidableEq AccountId] {s : State C} {op : Op C} (h : Completes s op) :
    Effect s op (exec s op).1 (exec s op).2 := by
  obtain ⟨action, t⟩ := op
  have herr : ∀ {e : DispatchError} {ledger : Ledger},
      action.run s = (.err e, { s with ledger := ledger }) →
      Effect s ⟨action, t⟩ (exec s ⟨action, t⟩).1 (exec s ⟨action, t⟩).2 := by
    intro e ledger hrun
    unfold exec
    rw [hrun]
    rcases t with _ | _
    · exact .refused (by simp)
    · show Effect s ⟨action, true⟩ (.err e) { s with ledger := s.ledger }
      exact .refused fun _ => rfl
  have hok : ∀ {a : Answer C} {s' : State C}, action.run s = (.ok a, s') →
      Effect s ⟨action, t⟩ (.ok a) s' →
      Effect s ⟨action, t⟩ (exec s ⟨action, t⟩).1 (exec s ⟨action, t⟩).2 := by
    intro a s' hrun he
    unfold exec
    rw [hrun]
    exact he
  have hpanic : ∀ {m : String} {s' : State C}, action.run s = (.panic m, s') → False := by
    intro m s' hrun
    simp [Completes, exec, hrun, Outcome.isPanic] at h
  cases action with
  | requestRandomness request =>
    rcases requestRandomness_cases request s t with ⟨e, hr⟩ | ⟨id, s', hr, he⟩
    · exact herr (Call.bind_err hr)
    · exact hok (Call.bind_ok hr) he
  | increaseRequestFee caller id feeIncrease =>
    rcases increaseRequestFee_cases caller id feeIncrease s t with ⟨e, hr⟩ | ⟨s', hr, he⟩
    · exact herr (Call.bind_err hr)
    · exact hok (Call.bind_ok hr) he
  | prepareFulfillment id =>
    rcases prepareFulfillment_cases id s t with ⟨e, hr⟩ | ⟨args, hr, he⟩
    · exact herr (Call.bind_err hr)
    · exact hok (Call.bind_ok hr) he
  | finishFulfillment id request deposit caller cost =>
    obtain ⟨s', hr, he⟩ := finishFulfillment_cases id request deposit caller cost s t
    exact hok (Call.bind_ok hr) he
  | executeRequestExpiration caller id =>
    rcases executeRequestExpiration_cases caller id s t with ⟨e, ledger, hr⟩ | ⟨s', hr, he⟩
    · exact herr (Call.bind_err hr)
    · exact hok (Call.bind_ok hr) he
  | setBabeRandomnessResults origin =>
    rcases setBabeRandomnessResults_cases origin s t with ⟨e, hr⟩ | ⟨s', hr, he⟩
    · exact herr (Call.bind_err hr)
    · exact hok (Call.bind_ok hr) he
  | newBlock env =>
    rcases onInitialize_cases { s with env := env } with ⟨m, s', hr⟩ | ⟨randomness, hr⟩
    · exact (hpanic ((Call.bind_ok rfl).trans (Call.bind_panic hr))).elim
    · exact hok ((Call.bind_ok rfl).trans (Call.bind_ok hr)) (.blockStarted rfl)
  | endBlock =>
    rcases onFinalize_cases s with ⟨m, s', hr⟩ | ⟨previous, hr⟩
    · exact (hpanic (Call.bind_panic hr)).elim
    · exact hok (Call.bind_ok hr) .blockEnded
  | elsewhere env ledger => exact hok rfl .elsewhere

/-- Every event of a run is an allowed operation in a state the run reached, and its effect. -/
theorem effect_of_mem [DecidableEq AccountId] {allow : List (RunEvent C) → State C → Op C → Prop}
    {h : List (RunEvent C)} {s : State C} {e : RunEvent C}
    (ha : ∀ h s op, allow h s op → Completes s op) (hr : Machine.Run (machine C) allow h s)
    (he : e ∈ h) : ∃ h', Machine.Run (machine C) allow h' e.before ∧ allow h' e.before e.op ∧
      Effect e.before e.op e.answer e.after := by
  obtain ⟨h', hrun, hop, hev⟩ := hr.mem_event he
  refine ⟨h', hrun, hop, ?_⟩
  rw [hev]
  exact exec_effect (ha _ _ _ hop)

end Randomness

end Moonkit
