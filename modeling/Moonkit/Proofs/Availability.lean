import Moonkit.Proofs.RequestCount

/-!
# Availability of randomness

A stored request finds its result because the counts are right. The result of a block is filled
exactly when the block begins, so from then on every request for it can be fulfilled. The result
of a relay epoch is filled when that epoch is the one reported; a request for it can be fulfilled
from then on, as long as no report stepped over it.
-/

namespace Moonkit

namespace Randomness

variable {AccountId Hash Ledger : Type} {C : Config AccountId Hash Ledger}

section Prepare

variable {s : State C} {id : RequestId} {r : RequestState C} {v : Hash}

theorem prepareFulfillment_apply (hr : s.requests.lookup id = some r) :
    prepareFulfillment id s = r.prepareFulfill s := by
  unfold prepareFulfillment
  rw [Call.get_bind, hr, Call.okOr_some, Call.pure_bind_apply]

theorem prepareFulfillment_of_held (hr : s.requests.lookup id = some r)
    (hd : r.request.canBeFulfilled s = true) (hv : s.held (resultKey r) = some v) :
    ∃ args, prepareFulfillment id s = (.ok args, s) := by
  obtain ⟨result, hl, hrand⟩ := Option.bind_eq_some_iff.1 hv
  have hw : r.request.getRandomWords s
      = (.ok (Request.computeRandomWords C v r.request.salt r.request.numWords), s) := by
    unfold Request.getRandomWords
    rw [Call.get_bind, Call.ensure_bind, if_pos hd]
    unfold resultKey at hl
    rw [hl, Call.okOr_some, Call.pure_bind_apply, hrand]
    rfl
  rw [prepareFulfillment_apply hr]
  unfold RequestState.prepareFulfill
  rw [Call.bind_ok hw]
  exact ⟨_, rfl⟩

theorem prepareFulfillment_of_err {e : DispatchError} (hr : s.requests.lookup id = some r)
    (he : r.request.getRandomWords s = (.err e, s)) : prepareFulfillment id s = (.err e, s) := by
  rw [prepareFulfillment_apply hr]
  unfold RequestState.prepareFulfill
  exact Call.bind_err he

theorem prepareFulfillment_of_not_due (hr : s.requests.lookup id = some r)
    (hd : r.request.canBeFulfilled s = false) :
    prepareFulfillment id s = (.err (.pallet .requestCannotYetBeFulfilled), s) := by
  refine prepareFulfillment_of_err hr ?_
  unfold Request.getRandomWords
  rw [Call.get_bind, Call.ensure_bind, if_neg (by simp [hd])]

theorem prepareFulfillment_of_missing (hr : s.requests.lookup id = some r)
    (hd : r.request.canBeFulfilled s = true)
    (hn : s.randomnessResults.lookup (resultKey r) = none) :
    prepareFulfillment id s = (.err (.pallet .randomnessResultDNE), s) := by
  refine prepareFulfillment_of_err hr ?_
  unfold Request.getRandomWords
  unfold resultKey at hn
  rw [Call.get_bind, Call.ensure_bind, if_pos hd, hn]
  rfl

end Prepare

variable [DecidableEq AccountId] {h : List (RunEvent C)} {s s' : State C} {op : Op C}
  {answer : Outcome DispatchError (Answer C)} {k : RequestType C}

/-- A key has a result after an operation only if it had one before or a request made it. -/
theorem Effect.lookup_none (he : Effect s op answer s')
    (hop : ∀ request, op.action ≠ .requestRandomness request)
    (hn : s.randomnessResults.lookup k = none) : s'.randomnessResults.lookup k = none := by
  cases he with
  | requested _ _ _ _ => exact absurd rfl (hop _)
  | finished _ => exact Results.lookup_leave_none hn
  | expired _ _ => exact Results.lookup_leave_none hn
  | @babeSet t results warnings hres =>
    subst hres
    split_ifs
    · rcases s.env.epochRandomness with _ | v
      · exact hn
      · exact Results.lookup_fill_none hn
    · exact hn
  | @blockStarted t env randomness results hres =>
    subst hres
    split_ifs
    · exact Results.lookup_fill_none hn
    · exact hn
  | _ => exact hn

section Block

/-- The results of blocks are filled up to the current one. -/
structure BlocksFilled (h : List (RunEvent C)) (s : State C) : Prop where
  begun : h.any isNewBlock = true → s.notFirstBlock = true
  before_first : s.notFirstBlock = false → ∀ k, s.randomnessResults.lookup k = none
  filled : ∀ block result, s.randomnessResults.lookup (.localVrf block) = some result →
    (result.randomness.isSome ↔ block ≤ s.env.blockNumber)

omit [DecidableEq AccountId] in
theorem BlocksFilled.genesis (hg : Genesis s) : BlocksFilled [] s := by
  obtain ⟨-, hres, -⟩ := hg
  refine ⟨by simp, fun _ k => ?_, fun block result hl => ?_⟩
  · rw [hres]
    exact Finmap.lookup_empty k
  · rw [hres] at hl
    simp at hl

theorem Effect.notFirstBlock_of (he : Effect s op answer s')
    (hb : isNewBlock ⟨s, op, answer, s'⟩ = true ∨ s.notFirstBlock = true) :
    s'.notFirstBlock = true := by
  cases he with
  | blockStarted _ => rfl
  | @refused op e ledger hl =>
    refine hb.resolve_left fun hnew => ?_
    obtain ⟨action, t⟩ := op
    cases action <;> simp [isNewBlock] at hnew
  | _ => exact hb.resolve_left (by simp [isNewBlock])

omit [DecidableEq AccountId] in
/-- A request that was accepted is for a later block, so what it waits for is not filled. -/
theorem BlocksFilled.filled_join (hi : BlocksFilled h s) (hmin : MinDelayPositive s)
    {r : RequestState C} (hv : r.request.validate s = (.ok (), s)) {block : BlockNumber C}
    {result : RandomnessResult Hash}
    (hl : (Results.join s.randomnessResults r.request.info.intoType).lookup (.localVrf block)
      = some result) : result.randomness.isSome ↔ block ≤ s.env.blockNumber := by
  by_cases hk : .localVrf block = r.request.info.intoType
  · rw [hk, Results.lookup_join_self, Option.some.injEq] at hl
    rcases hold : s.randomnessResults.lookup r.request.info.intoType with _ | result₀
    · rw [hold] at hl
      subst hl
      rcases hinfo : r.request.info with ⟨epoch, expires⟩ | ⟨due, expires⟩
      · rw [hinfo] at hk
        simp [RequestInfo.intoType] at hk
      · have hdue := validate_localVrf hinfo hv
        rw [hinfo] at hk
        simp only [RequestInfo.intoType, RequestType.localVrf.injEq] at hk
        subst hk
        unfold MinDelayPositive at hmin
        simp only [Option.elim_none, RandomnessResult.new, Option.isSome_none, Bool.false_eq_true,
          false_iff, Uint.le_iff_val]
        omega
    · rw [hold] at hl
      subst hl
      rw [← hk] at hold
      exact hi.filled block result₀ hold
  · rw [Results.lookup_join_of_ne hk] at hl
    exact hi.filled block result hl

omit [DecidableEq AccountId] in
theorem BlocksFilled.filled_leave (hi : BlocksFilled h s) {key : RequestType C}
    {block : BlockNumber C} {result : RandomnessResult Hash}
    (hl : (Results.leave s.randomnessResults key).lookup (.localVrf block) = some result) :
    result.randomness.isSome ↔ block ≤ s.env.blockNumber := by
  obtain ⟨result₀, hl₀, hsame⟩ := Results.lookup_of_leave hl
  rw [hsame]
  exact hi.filled block result₀ hl₀

omit [DecidableEq AccountId] in
/-- Starting a block fills its own result. -/
theorem BlocksFilled.filled_fill (hi : BlocksFilled h s) {next : BlockNumber C}
    (hnext : next.val = s.env.blockNumber.val + 1) {randomness : Hash} {block : BlockNumber C}
    {result : RandomnessResult Hash}
    (hl : (Results.fill s.randomnessResults (.localVrf next) randomness).lookup (.localVrf block)
      = some result) : result.randomness.isSome ↔ block ≤ next := by
  by_cases hk : block = next
  · subst hk
    rw [Results.lookup_fill_self] at hl
    obtain ⟨result₀, hl₀, rfl⟩ := Option.map_eq_some_iff.1 hl
    simp
  · rw [Results.lookup_fill_of_ne (by simpa using hk)] at hl
    have hne : block.val ≠ next.val := fun heq => hk (Uint.ext_val heq)
    rw [hi.filled block result hl, Uint.le_iff_val, Uint.le_iff_val]
    omega

theorem BlocksFilled.filled_step (hi : BlocksFilled h s) (hb : BlocksByOne s op)
    (hmin : MinDelayPositive s) (he : Effect s op answer s')
    {block : BlockNumber C} {result : RandomnessResult Hash}
    (hl : s'.randomnessResults.lookup (.localVrf block) = some result) :
    result.randomness.isSome ↔ block ≤ s'.env.blockNumber := by
  cases he with
  | requested _ hv _ _ => exact hi.filled_join hmin hv hl
  | finished _ => exact hi.filled_leave hl
  | expired _ _ => exact hi.filled_leave hl
  | @babeSet t results warnings hres =>
    subst hres
    split_ifs at hl
    · rcases hrand : s.env.epochRandomness with _ | v <;> rw [hrand] at hl
      · exact hi.filled block result hl
      · rw [Option.elim_some, Results.lookup_fill_of_ne (by simp)] at hl
        exact hi.filled block result hl
    · exact hi.filled block result hl
  | @blockStarted t env randomness results hres =>
    subst hres
    split_ifs at hl with hfirst
    · exact hi.filled_fill hb hl
    · rw [hi.before_first (by simpa using hfirst)] at hl
      simp at hl
  | elsewhere =>
    have hsame : _ = s.env.blockNumber := hb
    rw [hi.filled block result hl]
    simp only [hsame]
  | _ => exact hi.filled block result hl

theorem BlocksFilled.step (hi : BlocksFilled h s) (hb : BlocksByOne s op)
    (hreq : RequestsInBlocks h op) (hmin : MinDelayPositive s) (he : Effect s op answer s') :
    BlocksFilled (⟨s, op, answer, s'⟩ :: h) s' := by
  refine ⟨fun hany => ?_, fun hfirst k => ?_, fun block result hl => ?_⟩
  · rw [List.any_cons, Bool.or_eq_true] at hany
    exact he.notFirstBlock_of (hany.imp_right hi.begun)
  · have hfirst' : s.notFirstBlock = false := by
      rcases hs : s.notFirstBlock with _ | _
      · rfl
      · rw [he.notFirstBlock_of (.inr hs)] at hfirst
        exact absurd hfirst (by decide)
    refine he.lookup_none (fun request hop => ?_) (hi.before_first hfirst' k)
    unfold RequestsInBlocks at hreq
    rw [hop] at hreq
    rw [hi.begun hreq] at hfirst'
    exact absurd hfirst' (by decide)
  · exact hi.filled_step hb hmin he hl

/-- One block follows another, each begins before requests are made in it, and requests are for
later blocks. -/
def InBlocks (h : List (RunEvent C)) (s : State C) (op : Op C) : Prop :=
  Completes s op ∧ FinishesStored s op ∧ BlocksByOne s op ∧ RequestsInBlocks h op
    ∧ MinDelayPositive s

instance (h : List (RunEvent C)) (s : State C) (op : Op C) : Decidable (InBlocks h s op) :=
  inferInstanceAs (Decidable (_ ∧ _))

theorem blocksFilled_of_run (hr : Machine.Run (machine C) InBlocks h s) : BlocksFilled h s :=
  Machine.Run.invariant BlocksFilled (fun _ hg => .genesis hg)
    (fun _ _ _ _ hi ⟨hcomp, _, hb, hreq, hmin⟩ => hi.step hb hreq hmin (exec_effect hcomp)) hr

/-- **Availability of block randomness.** A stored request for a block is fulfilled from that
block on and told to wait before. -/
theorem local_request_available (hr : Machine.Run (machine C) InBlocks h s) {id : RequestId}
    {r : RequestState C} {blockDue expires : BlockNumber C} (hs : s.requests.lookup id = some r)
    (hinfo : r.request.info = .localVrf blockDue expires) :
    (blockDue ≤ s.env.blockNumber → ∃ args, prepareFulfillment id s = (.ok args, s)) ∧
    (s.env.blockNumber < blockDue →
      prepareFulfillment id s = (.err (.pallet .requestCannotYetBeFulfilled), s)) ∧
    (prepareFulfillment id s).1 ≠ .err (.pallet .randomnessResultDNE) ∧
    (prepareFulfillment id s).1 ≠ .err (.pallet .randomnessResultNotFilled) := by
  have hi := blocksFilled_of_run hr
  have hc := counted_of_run (fun _ _ _ ha => ha.1) (fun _ _ _ _ ha => ha.2.1) hr
  have hkey : resultKey r = .localVrf blockDue := by
    unfold resultKey
    rw [hinfo]
    rfl
  have hdue : r.request.canBeFulfilled s = decide (blockDue ≤ s.env.blockNumber) := by
    unfold Request.canBeFulfilled
    rw [hinfo]
  have hok : blockDue ≤ s.env.blockNumber → ∃ args, prepareFulfillment id s = (.ok args, s) := by
    intro hle
    obtain ⟨result, hl, -⟩ := hc.lookup_key hs
    obtain ⟨v, hv⟩ := Option.isSome_iff_exists.1 ((hi.filled blockDue result (hkey ▸ hl)).2 hle)
    refine prepareFulfillment_of_held hs (by simp [hdue, hle]) (v := v) ?_
    simp only [State.held, Results.held, hl, Option.bind_some, hv]
  have hwait : s.env.blockNumber < blockDue →
      prepareFulfillment id s = (.err (.pallet .requestCannotYetBeFulfilled), s) := by
    intro hlt
    exact prepareFulfillment_of_not_due hs (by simp [hdue, hlt])
  refine ⟨hok, hwait, ?_⟩
  rcases le_or_gt blockDue s.env.blockNumber with hle | hlt
  · obtain ⟨args, ha⟩ := hok hle
    simp [ha]
  · simp [hwait hlt]

theorem local_request_available_sampled :
    Mock.sampled.2.env.blockNumber = .lit 3 ∧
      ∃ args, prepareFulfillment (.lit 1) Mock.sampled.2 = (.ok args, Mock.sampled.2) := by
  have hs : Mock.sampled.2.requests.lookup (.lit 1) = some
      (Mock.stored (.lit 5) (.localVrf (.lit 3) (.lit 21))) := by
    decide +kernel
  have hres := local_request_available (Mock.run_replayed Mock.sample (by decide +kernel)) hs rfl
  exact ⟨by decide +kernel, hres.1 (by decide +kernel)⟩

/-- A callback of the first request fulfils it a second time. -/
def Mock.nested : List (RunEvent test) × State test :=
  replayed (twoRequests [.prepareFulfillment 0, .prepareFulfillment 0, finishFirst (.lit 5),
    finishFirst (.lit 5)])

/-- Where one request is fulfilled twice, the result of another one for the same block is gone. -/
theorem repeated_finish_loses_result :
    Machine.Run (machine Mock.test) (fun h s op => Completes s op ∧ FinishesOnce h op
        ∧ BlocksByOne s op ∧ RequestsInBlocks h op ∧ MinDelayPositive s)
      Mock.nested.1 Mock.nested.2 ∧
    Mock.nested.2.requests.lookup (.lit 1) = some
      (Mock.stored (.lit 5) (.localVrf (.lit 3) (.lit 21))) ∧
    Mock.nested.2.env.blockNumber = .lit 3 ∧
    prepareFulfillment (.lit 1) Mock.nested.2
      = (.err (.pallet .randomnessResultDNE), Mock.nested.2) := by
  have hs : Mock.nested.2.requests.lookup (.lit 1) = some
      (Mock.stored (.lit 5) (.localVrf (.lit 3) (.lit 21))) := by
    decide +kernel
  exact ⟨Mock.run_replayed _ (by decide +kernel), hs, by decide +kernel,
    prepareFulfillment_of_missing hs (by decide +kernel) (by decide +kernel)⟩

end Block

section Epoch

/-- The request was accepted before its epoch. -/
def AcceptedBefore (h : List (RunEvent C)) (id : RequestId) (epoch : U64) : Prop :=
  ∃ e ∈ h, issuedId e = some id ∧ e.before.relayEpoch < epoch

/-- Every stored request that was accepted before its epoch still waits or has its randomness. -/
def EpochsFilled (h : List (RunEvent C)) (s : State C) : Prop :=
  ∀ id r epoch expires, s.requests.lookup id = some r →
    r.request.info = .babeEpoch epoch expires → AcceptedBefore h id epoch →
    s.relayEpoch < epoch ∨ ∃ v, s.held (.babeEpoch epoch) = some v

/-- A randomness stays as long as its result does. -/
theorem Effect.held_stays (he : Effect s op answer s') (hv : (s.held k).isSome)
    {result : RandomnessResult Hash} (hl : s'.randomnessResults.lookup k = some result) :
    (s'.held k).isSome := by
  cases he with
  | requested _ _ _ _ => exact (congrArg Option.isSome Results.held_join).trans hv
  | finished _ => exact Results.isSome_held_leave hv hl
  | expired _ _ => exact Results.isSome_held_leave hv hl
  | @babeSet t results warnings hres =>
    subst hres
    split_ifs
    · rcases s.env.epochRandomness with _ | v
      · exact hv
      · exact Results.isSome_held_fill hv
    · exact hv
  | @blockStarted t env randomness results hres =>
    subst hres
    split_ifs
    · exact Results.isSome_held_fill hv
    · exact hv
  | _ => exact hv

/-- A key that waits for its epoch still waits after an operation, or has its randomness. -/
theorem Effect.epoch_filled {epoch expires : U64} {id : RequestId} {r : RequestState C}
    (he : Effect s op answer s') (hk : EpochRandomnessKnown s op) (hn : SkipsNoDueEpoch s op)
    (hc : Counted s.requests s.randomnessResults) (hr : s.requests.lookup id = some r)
    (hinfo : r.request.info = .babeEpoch epoch expires) (hwait : s.relayEpoch < epoch) :
    s'.relayEpoch < epoch ∨ ∃ v, s'.held (.babeEpoch epoch) = some v := by
  cases he with
  | @babeSet t results warnings hres =>
    obtain ⟨v, hv⟩ := Option.isSome_iff_exists.1 hk
    have hkey : resultKey r = .babeEpoch epoch := congrArg RequestInfo.intoType hinfo
    obtain ⟨result, hl, -⟩ := hc.lookup_key hr
    rw [hkey] at hl
    have hskip := hn id (Finmap.mem_keys_of_lookup hr) r hr epoch (by rw [hinfo]; rfl)
    rcases lt_trichotomy s.env.epochIndex epoch with hlt | heq | hgt
    · exact .inl hlt
    · refine .inr ⟨v, ?_⟩
      subst hres
      rw [← heq] at hwait hl ⊢
      simp only [State.held, if_pos hwait, hv, Option.elim_some]
      exact Results.held_fill_self hl
    · exact absurd ⟨hwait, hgt⟩ hskip
  | _ => exact .inl hwait

theorem EpochsFilled.step (hi : EpochsFilled h s) (hids : IdsInOrder h s)
    (hc : Counted s.requests s.randomnessResults)
    (hc' : Counted s'.requests s'.randomnessResults) (hk : EpochRandomnessKnown s op)
    (hn : SkipsNoDueEpoch s op) (he : Effect s op answer s') :
    EpochsFilled (⟨s, op, answer, s'⟩ :: h) s' := by
  rintro id r' epoch expires hr' hinfo ⟨e, hmem, hissued, hbefore⟩
  rcases List.mem_cons.1 hmem with rfl | hmem
  · refine .inl ?_
    cases he with
    | requested _ _ _ _ => exact hbefore
    | @refused op e ledger hl =>
      obtain ⟨action, t⟩ := op
      cases action <;> simp [issuedId] at hissued
    | _ => simp [issuedId] at hissued
  · have hlt := hids.issued_lt id (List.mem_filterMap.2 ⟨e, hmem, hissued⟩)
    rcases he.stored_cases hr' with ⟨rfl, -⟩ | ⟨r, hr, fee, -, rfl⟩
    · exact absurd hlt (lt_irrefl _)
    · rcases hi id r epoch expires hr hinfo ⟨e, hmem, hissued, hbefore⟩ with hwait | ⟨v, hv⟩
      · exact he.epoch_filled hk hn hc hr hinfo hwait
      · obtain ⟨result, hl, -⟩ := hc'.lookup_key hr'
        have hkey : resultKey r = .babeEpoch epoch := congrArg RequestInfo.intoType hinfo
        have hstays := he.held_stays (Option.isSome_iff_exists.2 ⟨v, hv⟩) (hkey ▸ hl)
        exact .inr (Option.isSome_iff_exists.1 hstays)

/-- The runtime reports relay epochs that never decrease and whose randomness it knows. -/
def ReportsEpochs (h : List (RunEvent C)) (s : State C) (op : Op C) : Prop :=
  Completes s op ∧ FinishesStored s op ∧ EpochsNeverDecrease h s op ∧ EpochRandomnessKnown s op

instance (h : List (RunEvent C)) (s : State C) (op : Op C) : Decidable (ReportsEpochs h s op) :=
  inferInstanceAs (Decidable (_ ∧ _))

theorem epochsFilled_of_run
    (hr : Machine.Run (machine C) (fun h s op => ReportsEpochs h s op ∧ SkipsNoDueEpoch s op) h s) :
    EpochsFilled h s := by
  refine Machine.Run.invariant EpochsFilled (fun s hg => ?_) (fun h s op hr hi hop => ?_) hr
  · rintro id r epoch expires - - ⟨e, hmem, -⟩
    simp at hmem
  · obtain ⟨⟨hcomp, hfin, -, hknown⟩, hskip⟩ := hop
    have hids := idsInOrder_of_run (fun _ _ _ ha => ha.1.1) hr
    have hc := counted_of_run (fun _ _ _ ha => ha.1.1) (fun _ _ _ _ ha => ha.1.2.1) hr
    have he := exec_effect hcomp
    exact hi.step hids hc (counted_step hids hc hfin he) hknown hskip he

/-- **Availability of epoch randomness.** If no report of the relay epoch steps over an epoch that
a stored request waits for, then a stored request that was accepted before its epoch is fulfilled
from that epoch on. -/
theorem babe_request_available
    (hr : Machine.Run (machine C) (fun h s op => ReportsEpochs h s op ∧ SkipsNoDueEpoch s op) h s)
    {id : RequestId} {r : RequestState C} {epoch expires : U64}
    (hs : s.requests.lookup id = some r) (hinfo : r.request.info = .babeEpoch epoch expires)
    (hb : AcceptedBefore h id epoch) (hdue : epoch ≤ s.relayEpoch) :
    ∃ args, prepareFulfillment id s = (.ok args, s) := by
  obtain hwait | ⟨v, hv⟩ := epochsFilled_of_run hr id r epoch expires hs hinfo hb
  · exact absurd hwait (not_lt_of_ge hdue)
  · have hkey : resultKey r = .babeEpoch epoch := congrArg RequestInfo.intoType hinfo
    refine prepareFulfillment_of_held hs ?_ (hkey ▸ hv)
    unfold Request.canBeFulfilled
    rw [hinfo]
    exact decide_eq_true hdue

open Mock

/-- A request for epoch 2 in epoch 1, and a block in the epoch `next`. -/
def epochRequest (next : U64) : List (RunEvent test) × State test :=
  replayed (block (.lit 1) (.lit 1)
      [.requestRandomness (buildDefaultRequest (.babeEpoch (.lit 2)))]
    ++ block next (.lit 2) [])

def epochRequestStored : RequestState test :=
  stored (.lit 5) (.babeEpoch (.lit 2) (.lit 21))

instance (h : List (RunEvent test)) (id : RequestId) (epoch : U64) :
    Decidable (AcceptedBefore h id epoch) :=
  inferInstanceAs (Decidable (∃ e ∈ h, _))

theorem babe_request_available_next_epoch :
    ∃ args, prepareFulfillment 0 (epochRequest (.lit 2)).2
      = (.ok args, (epochRequest (.lit 2)).2) := by
  have hs : (epochRequest (.lit 2)).2.requests.lookup 0 = some epochRequestStored := by
    decide +kernel
  exact babe_request_available (run_replayed _ (by decide +kernel)) hs rfl (by decide +kernel)
    (by decide +kernel)

/-- When the relay goes from epoch 1 to epoch 3, the request for epoch 2 is due and stays without
randomness. -/
theorem skipped_epoch_not_filled :
    Machine.Run (machine test) ReportsEpochs (epochRequest (.lit 3)).1
        (epochRequest (.lit 3)).2 ∧
      (epochRequest (.lit 3)).2.requests.lookup 0 = some epochRequestStored ∧
      AcceptedBefore (epochRequest (.lit 3)).1 0 (.lit 2) ∧
      .lit 2 ≤ (epochRequest (.lit 3)).2.relayEpoch ∧
      (prepareFulfillment 0 (epochRequest (.lit 3)).2).1
        = .err (.pallet .randomnessResultNotFilled) := by
  refine ⟨run_replayed _ ?_, ?_, ?_, ?_, rfl⟩ <;> decide +kernel

end Epoch

end Randomness

end Moonkit
