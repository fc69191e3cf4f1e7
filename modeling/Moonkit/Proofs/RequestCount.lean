import Moonkit.Proofs.RandomnessEffect
import Moonkit.RandomnessMock

/-!
# Reference counts of the results

Along every run in which a fulfilment is finished with what its preparation returned, while the
id is still stored, each result counts exactly the stored requests of its key and is there only
while there is one. Ids are issued in increasing order, so none is issued twice and what a
preparation returned is, up to fee increases, what is stored under its id as long as anything is.
-/

namespace Moonkit

namespace Randomness

variable {AccountId Hash Ledger : Type} {C : Config AccountId Hash Ledger}

/-- `r'` is `r` with a fee that is no lower. -/
def FeeGrows (r r' : RequestState C) : Prop :=
  ∃ fee, r.request.fee ≤ fee ∧ r' = { r with request := { r.request with fee := fee } }

theorem FeeGrows.refl (r : RequestState C) : FeeGrows r r := ⟨r.request.fee, le_refl _, rfl⟩

theorem FeeGrows.trans {r r' r'' : RequestState C} (h : FeeGrows r r') (h' : FeeGrows r' r'') :
    FeeGrows r r'' := by
  obtain ⟨fee, hle, rfl⟩ := h
  obtain ⟨fee', hle', rfl⟩ := h'
  exact ⟨fee', hle.trans hle', rfl⟩

theorem mem_issued_cons {e : RunEvent C} {h : List (RunEvent C)} {id : RequestId} :
    id ∈ issued (e :: h) ↔ issuedId e = some id ∨ id ∈ issued h := by
  simp only [issued, List.mem_filterMap, List.mem_cons, exists_eq_or_imp]

theorem mem_prepared_cons {e : RunEvent C} {h : List (RunEvent C)}
    {p : RequestId × RequestState C} :
    p ∈ prepared (e :: h) ↔ preparedArgs e = some p ∨ p ∈ prepared h := by
  simp only [prepared, List.mem_filterMap, List.mem_cons, exists_eq_or_imp]

variable [DecidableEq AccountId]

section History

variable {s s' : State C} {op : Op C}
  {answer : Outcome DispatchError (Answer C)}

/-- The ids an operation adds to or keeps in storage, and the one it issues, stand in order with
the counter. -/
theorem Effect.issuedId_eq {id : RequestId} (he : Effect s op answer s')
    (hi : issuedId ⟨s, op, answer, s'⟩ = some id) :
    id = s.requestCount ∧ s'.requestCount.val = s.requestCount.val + 1 := by
  cases he with
  | requested _ _ hn _ =>
    simp only [issuedId, Option.some.injEq] at hi
    exact ⟨hi.symm, hn⟩
  | _ => simp [issuedId] at hi

theorem Effect.preparedArgs_stored {id : RequestId} {r : RequestState C}
    (he : Effect s op answer s') (hp : preparedArgs ⟨s, op, answer, s'⟩ = some (id, r)) :
    s.requests.lookup id = some r ∧ s' = s := by
  cases he with
  | prepared hr _ _ _ =>
    simp only [preparedArgs, Option.some.injEq, Prod.mk.injEq] at hp
    obtain ⟨rfl, rfl⟩ := hp
    exact ⟨hr, rfl⟩
  | _ => simp [preparedArgs] at hp

theorem Effect.requestCount_le (he : Effect s op answer s') : s.requestCount ≤ s'.requestCount := by
  cases he with
  | requested _ _ hn _ =>
    rw [Uint.le_iff_val]
    simp only
    omega
  | _ => exact le_refl _

/-- What is stored after an operation is the request it issued or was stored before, and only its
fee can have grown. -/
theorem Effect.stored_cases {id : RequestId} {r' : RequestState C} (he : Effect s op answer s')
    (hr' : s'.requests.lookup id = some r') :
    (id = s.requestCount ∧ s'.requestCount.val = s.requestCount.val + 1 ∧
      ∃ request, op.action = .requestRandomness request
        ∧ r' = ⟨request.withInfo (request.info.intoInfo s), s.env.constants.deposit⟩) ∨
      ∃ r, s.requests.lookup id = some r ∧ FeeGrows r r' := by
  cases he with
  | @requested t request r nextId ledger events hr hv hn ht =>
    by_cases hid : id = s.requestCount
    · subst hid
      rw [Finmap.lookup_insert, Option.some.injEq] at hr'
      exact .inl ⟨rfl, hn, request, rfl, hr'.symm.trans hr⟩
    · rw [Finmap.lookup_insert_of_ne _ hid] at hr'
      exact .inr ⟨r', hr', .refl r'⟩
  | @feeIncreased t caller id' feeIncrease newFee r ledger hr hc hf ht =>
    by_cases hid : id = id'
    · subst hid
      rw [Finmap.lookup_insert, Option.some.injEq] at hr'
      refine .inr ⟨r, hr, newFee, ?_, hr'.symm⟩
      rw [Uint.le_iff_val]
      omega
    · rw [Finmap.lookup_insert_of_ne _ hid] at hr'
      exact .inr ⟨r', hr', .refl r'⟩
  | finished hp => exact .inr ⟨r', Finmap.lookup_of_lookup_erase hr', .refl r'⟩
  | expired hr hp => exact .inr ⟨r', Finmap.lookup_of_lookup_erase hr', .refl r'⟩
  | _ => exact .inr ⟨r', hr', .refl r'⟩

end History

/-- What the history and the storage agree on about ids. -/
structure IdsInOrder (h : List (RunEvent C)) (s : State C) : Prop where
  stored_lt : ∀ id r, s.requests.lookup id = some r → id.val < s.requestCount.val
  issued_lt : ∀ id ∈ issued h, id.val < s.requestCount.val
  issued_nodup : (issued h).Nodup
  prepared_lt : ∀ id r, (id, r) ∈ prepared h → id.val < s.requestCount.val
  prepared_grows : ∀ id r r', (id, r) ∈ prepared h → s.requests.lookup id = some r' →
    FeeGrows r r'

omit [DecidableEq AccountId] in
theorem IdsInOrder.genesis {s : State C} (hg : Genesis s) : IdsInOrder [] s := by
  obtain ⟨hreq, -⟩ := hg
  refine ⟨fun id r hr => ?_, by simp [issued], by simp [issued], by simp [prepared],
    by simp [prepared]⟩
  rw [hreq] at hr
  simp at hr

theorem IdsInOrder.step {h : List (RunEvent C)} {s s' : State C} {op : Op C}
    {answer : Outcome DispatchError (Answer C)} (hi : IdsInOrder h s)
    (he : Effect s op answer s') : IdsInOrder (⟨s, op, answer, s'⟩ :: h) s' := by
  have hle := Uint.le_iff_val.1 he.requestCount_le
  refine ⟨fun id r hr => ?_, fun id hid => ?_, ?_, fun id r hp => ?_, fun id r r' hp hr' => ?_⟩
  · rcases he.stored_cases hr with ⟨rfl, hn, -⟩ | ⟨r₀, hr₀, -⟩
    · omega
    · have := hi.stored_lt id r₀ hr₀
      omega
  · rcases mem_issued_cons.1 hid with hid | hid
    · obtain ⟨rfl, hn⟩ := he.issuedId_eq hid
      omega
    · have := hi.issued_lt id hid
      omega
  · rcases hid : issuedId ⟨s, op, answer, s'⟩ with _ | id
    · simpa only [issued, List.filterMap_cons_none hid] using hi.issued_nodup
    · simp only [issued, List.filterMap_cons_some hid, List.nodup_cons]
      refine ⟨fun hmem => ?_, hi.issued_nodup⟩
      obtain ⟨rfl, -⟩ := he.issuedId_eq hid
      exact lt_irrefl _ (hi.issued_lt _ hmem)
  · rcases mem_prepared_cons.1 hp with hp | hp
    · obtain ⟨hr, rfl⟩ := he.preparedArgs_stored hp
      exact hi.stored_lt id r hr
    · have := hi.prepared_lt id r hp
      omega
  · rcases mem_prepared_cons.1 hp with hp | hp
    · obtain ⟨hr, rfl⟩ := he.preparedArgs_stored hp
      rw [hr, Option.some.injEq] at hr'
      exact hr' ▸ .refl r
    · rcases he.stored_cases hr' with ⟨rfl, -⟩ | ⟨r₀, hr₀, hgrow⟩
      · exact absurd (hi.prepared_lt _ r hp) (lt_irrefl _)
      · exact (hi.prepared_grows id r r₀ hp hr₀).trans hgrow

/-- Along every run the ids are in order, however fulfilments are finished. -/
theorem idsInOrder_of_run {allow : List (RunEvent C) → State C → Op C → Prop}
    (ha : ∀ h s op, allow h s op → Completes s op) {h : List (RunEvent C)} {s : State C}
    (hr : Machine.Run (machine C) allow h s) : IdsInOrder h s :=
  Machine.Run.invariant IdsInOrder (fun _ hg => .genesis hg)
    (fun h s op _ hi hop => hi.step (exec_effect (ha h s op hop))) hr

omit [DecidableEq AccountId] in
/-- A fulfilment that is finished with what its preparation returned, while its id is stored, is
finished with an id that corresponds to its request. -/
theorem IdsInOrder.finishesStored {h : List (RunEvent C)} {s : State C} {op : Op C}
    (hi : IdsInOrder h s) (hf : FinishesPrepared h s op) : FinishesStored s op := by
  obtain ⟨action, t⟩ := op
  cases action with
  | finishFulfillment id request deposit caller cost =>
    obtain ⟨hmem, hsome⟩ := hf
    obtain ⟨r, hr⟩ := Option.isSome_iff_exists.1 hsome
    obtain ⟨fee, -, rfl⟩ := hi.prepared_grows id _ r hmem hr
    simp only [FinishesStored, hr, Option.map_some]
  | _ => trivial

omit [DecidableEq AccountId] in
theorem FinishesStored.lookup {s : State C} {t : Bool} {id : RequestId}
    {request : Request C (RequestInfo C)} {deposit cost : Balance C} {caller : H160}
    (hf : FinishesStored s ⟨.finishFulfillment id request deposit caller cost, t⟩) :
    ∃ r, s.requests.lookup id = some r ∧ r.request.info = request.info :=
  Option.map_eq_some_iff.1 hf

/-- The counts stay right over an operation that finishes fulfilments with their own ids. -/
theorem counted_step {h : List (RunEvent C)} {s s' : State C} {op : Op C}
    {answer : Outcome DispatchError (Answer C)} (hi : IdsInOrder h s)
    (hc : Counted s.requests s.randomnessResults) (hf : FinishesStored s op)
    (he : Effect s op answer s') : Counted s'.requests s'.randomnessResults := by
  cases he with
  | @requested t request r nextId ledger events hr hv hn ht =>
    have := nextId.le_max
    exact counted_join hc hi.stored_lt (by omega)
  | @feeIncreased t caller id feeIncrease newFee r ledger hr hc' hf' ht => exact hc.update hr rfl
  | @finished t id request deposit caller cost ledger warnings hp =>
    obtain ⟨r, hr, hinfo⟩ := hf.lookup
    exact counted_leave hc hr (congrArg RequestInfo.intoType hinfo)
  | expired hr hp => exact counted_leave hc hr rfl
  | babeSet hres =>
    subst hres
    split_ifs
    · rcases s.env.epochRandomness with _ | randomness
      · exact hc
      · exact counted_fill hc _
    · exact hc
  | blockStarted hres =>
    subst hres
    split_ifs
    · exact counted_fill hc _
    · exact hc
  | _ => exact hc

/-- The counts are right along every run that finishes fulfilments with their own ids. -/
theorem counted_of_run {allow : List (RunEvent C) → State C → Op C → Prop}
    (hcomp : ∀ h s op, allow h s op → Completes s op)
    (hfin : ∀ h s op, IdsInOrder h s → allow h s op → FinishesStored s op)
    {h : List (RunEvent C)} {s : State C} (hr : Machine.Run (machine C) allow h s) :
    Counted s.requests s.randomnessResults := by
  refine Machine.Run.invariant (fun _ s => Counted s.requests s.randomnessResults)
    (fun s hg => ?_) (fun h s op hr hc hop => ?_) hr
  · obtain ⟨hreq, hres, -⟩ := hg
    rw [hreq, hres]
    exact .empty
  · have hi := idsInOrder_of_run hcomp hr
    exact counted_step hi hc (hfin h s op hi hop) (exec_effect (hcomp h s op hop))

/-- **Reference counting.** A result is there exactly while a stored request waits for it, it
counts those requests, every stored id is below the counter, and no id is issued twice. -/
theorem results_count_stored_requests {h : List (RunEvent C)} {s : State C}
    (hr : Machine.Run (machine C) (fun h s op => Completes s op ∧ FinishesPrepared h s op) h s) :
    (∀ k, (∃ result, s.randomnessResults.lookup k = some result) ↔
      ∃ id r, s.requests.lookup id = some r ∧ r.request.info.intoType = k) ∧
    (∀ k result, s.randomnessResults.lookup k = some result → result.requestCount.val
      = s.requests.total fun r => if r.request.info.intoType = k then 1 else 0) ∧
    (∀ id r, s.requests.lookup id = some r → id < s.requestCount) ∧
    (issued h).Nodup := by
  have hi := idsInOrder_of_run (fun h s op hop => hop.1) hr
  have hc := counted_of_run (fun h s op hop => hop.1)
    (fun h s op hi hop => hi.finishesStored hop.2) hr
  exact ⟨fun k => hc.exists_iff, hc.exact_count, hi.stored_lt, hi.issued_nodup⟩

namespace Mock

/-- Three requests, two of them for the same block. In that block one of the two has its fee
increased and is fulfilled by `alice`, and the one for an epoch is fulfilled by `bob`. -/
def sample : List (Op test) :=
  block (.lit 1) (.lit 1)
    [.requestRandomness (buildDefaultRequest (.localVrf (.lit 3))),
      .requestRandomness (buildDefaultRequest (.localVrf (.lit 3))),
      .requestRandomness (buildDefaultRequest (.babeEpoch (.lit 2)))]
  ++ block (.lit 2) (.lit 2) []
  ++ block (.lit 2) (.lit 3)
    [.increaseRequestFee alice 0 (.lit 1),
      .prepareFulfillment 0,
      .prepareFulfillment (.lit 2),
      .finishFulfillment 0
        (stored (.lit 6) (.localVrf (.lit 3) (.lit 21))).request
        constants.deposit alice (.lit 4),
      .finishFulfillment (.lit 2)
        (stored (.lit 5) (.babeEpoch (.lit 2) (.lit 21))).request
        constants.deposit bob (.lit 4)]

abbrev sampled : List (RunEvent test) × State test := replayed sample

end Mock

theorem results_count_stored_requests_sampled :
    issued Mock.sampled.1 = [.lit 2, .lit 1, 0] ∧ (issued Mock.sampled.1).Nodup ∧
    ((∃ result, Mock.sampled.2.randomnessResults.lookup (.localVrf (.lit 3)) = some result) ↔
      ∃ id r, Mock.sampled.2.requests.lookup id = some r
        ∧ r.request.info.intoType = .localVrf (.lit 3)) ∧
    (Mock.sampled.2.requests.lookup (.lit 1)).isSome := by
  have hres := results_count_stored_requests (Mock.run_replayed Mock.sample (by decide +kernel))
  exact ⟨by decide +kernel, hres.2.2.2, hres.1 _, by decide +kernel⟩

end Randomness

end Moonkit
