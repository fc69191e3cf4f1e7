import Moonkit.Proofs.RequestCount

/-!
# Randomness is written once

A result is filled only when its block or its epoch becomes the current one. Block numbers
increase and relay epochs never decrease, so the key of a randomness that was ever stored is past
from then on, no key is filled a second time, and a request for what is not yet past joins a
result that is still empty.
-/

namespace Moonkit

namespace Randomness

variable {AccountId Hash Ledger : Type} {C : Config AccountId Hash Ledger}

/-- The block or the epoch of a key is not after the current one. -/
def Past (s : State C) : RequestType C → Prop
  | .babeEpoch epoch => epoch ≤ s.relayEpoch
  | .localVrf block => block ≤ s.env.blockNumber

/-- The relay epoch of the pallet is one the runtime has reported, or the initial one. -/
def Reported (h : List (RunEvent C)) (s : State C) : Prop :=
  s.relayEpoch = 0 ∨ s.relayEpoch ∈ reportedEpochs h

variable [DecidableEq AccountId] {h : List (RunEvent C)} {s s' : State C} {op : Op C}
  {answer : Outcome DispatchError (Answer C)} {k : RequestType C} {v : Hash}

theorem Reported.step (hi : Reported h s) (he : Effect s op answer s') :
    Reported (⟨s, op, answer, s'⟩ :: h) s' := by
  have hkeep : s'.relayEpoch = s.relayEpoch → Reported (⟨s, op, answer, s'⟩ :: h) s' := by
    intro heq
    rcases hi with hi | hi
    · exact .inl (heq.trans hi)
    · refine .inr ?_
      rw [heq]
      obtain ⟨e, he, hrep⟩ := List.mem_filterMap.1 hi
      exact List.mem_filterMap.2 ⟨e, List.mem_cons_of_mem _ he, hrep⟩
  cases he with
  | babeSet _ => exact .inr (List.mem_filterMap.2 ⟨_, List.mem_cons_self, rfl⟩)
  | _ => exact hkeep rfl

theorem Reported.relayEpoch_le (hi : Reported h s) (ha : EpochsNeverDecrease h s op)
    (he : Effect s op answer s') : s.relayEpoch ≤ s'.relayEpoch := by
  cases he with
  | babeSet _ =>
    rcases hi with hi | hi
    · rw [hi, Uint.le_iff_val]
      exact Nat.zero_le _
    · exact ha _ hi
  | _ => exact le_refl _

theorem Effect.blockNumber_le (ha : BlocksIncrease s op) (he : Effect s op answer s') :
    s.env.blockNumber ≤ s'.env.blockNumber := by
  cases he with
  | blockStarted _ => exact le_of_lt ha
  | elsewhere => exact ge_of_eq ha
  | _ => exact le_refl _

theorem Past.step (hp : Past s k) (hi : Reported h s) (hb : BlocksIncrease s op)
    (ha : EpochsNeverDecrease h s op) (he : Effect s op answer s') : Past s' k := by
  rcases k with epoch | block
  · exact le_trans hp (hi.relayEpoch_le ha he)
  · exact le_trans hp (he.blockNumber_le hb)

/-- A randomness that is stored after an operation was stored before, or its key has just become
past. -/
theorem Effect.held_cases (hb : BlocksIncrease s op) (he : Effect s op answer s')
    (hv : s'.held k = some v) :
    s.held k = some v ∨ ¬ Past s k ∧ Past s' k := by
  cases he with
  | requested _ _ _ _ => exact .inl (Results.held_join.symm.trans hv)
  | finished _ => exact .inl (Results.held_leave hv)
  | expired _ _ => exact .inl (Results.held_leave hv)
  | @babeSet t results warnings hres =>
    subst hres
    split_ifs at hv with hlt
    · rcases hrand : s.env.epochRandomness with _ | randomness <;> rw [hrand] at hv
      · exact .inl hv
      · by_cases hk : k = .babeEpoch s.env.epochIndex
        · subst hk
          exact .inr ⟨not_le_of_gt hlt, le_refl _⟩
        · exact .inl ((Results.held_fill_of_ne hk).symm.trans hv)
    · exact .inl hv
  | @blockStarted t env randomness results hres =>
    subst hres
    split_ifs at hv
    · by_cases hk : k = .localVrf env.blockNumber
      · subst hk
        exact .inr ⟨not_le_of_gt hb, le_refl _⟩
      · exact .inl ((Results.held_fill_of_ne hk).symm.trans hv)
    · exact .inl hv
  | _ => exact .inl hv

/-- What the randomness stored so far and the one stored now agree on. -/
structure WrittenOnce (h : List (RunEvent C)) (s : State C) : Prop where
  reported : Reported h s
  held_past : ∀ k v, s.held k = some v → Past s k
  seen_past : ∀ e ∈ h, ∀ k v, e.after.held k = some v → Past s k
  seen_held : ∀ e ∈ h, ∀ k v v', e.after.held k = some v →
    s.held k = some v' → v = v'
  seen_seen : ∀ e ∈ h, ∀ e' ∈ h, ∀ k v v', e.after.held k = some v →
    e'.after.held k = some v' → v = v'

omit [DecidableEq AccountId] in
theorem WrittenOnce.genesis (hg : Genesis s) : WrittenOnce [] s := by
  obtain ⟨-, hres, -, hepoch, -⟩ := hg
  refine ⟨.inl hepoch, fun k v hv => ?_, by simp, by simp, by simp⟩
  simp [State.held, Results.held, hres] at hv

theorem WrittenOnce.step (hi : WrittenOnce h s) (hb : BlocksIncrease s op)
    (ha : EpochsNeverDecrease h s op) (he : Effect s op answer s') :
    WrittenOnce (⟨s, op, answer, s'⟩ :: h) s' := by
  have hmono : ∀ {k}, Past s k → Past s' k := fun hp => hp.step hi.reported hb ha he
  have hpast : ∀ k v, s'.held k = some v → Past s' k := by
    intro k v hv
    rcases he.held_cases hb hv with hold | ⟨-, hp⟩
    · exact hmono (hi.held_past k v hold)
    · exact hp
  have hsame : ∀ e ∈ h, ∀ k v v', e.after.held k = some v →
      s'.held k = some v' → v = v' := by
    intro e hmem k v v' hv hv'
    rcases he.held_cases hb hv' with hold | ⟨hnew, -⟩
    · exact hi.seen_held e hmem k v v' hv hold
    · exact absurd (hi.seen_past e hmem k v hv) hnew
  refine ⟨hi.reported.step he, hpast, ?_, ?_, ?_⟩
  · intro e hmem k v hv
    rcases List.mem_cons.1 hmem with rfl | hmem
    · exact hpast k v hv
    · exact hmono (hi.seen_past e hmem k v hv)
  · intro e hmem k v v' hv hv'
    rcases List.mem_cons.1 hmem with rfl | hmem
    · exact Option.some.inj (hv.symm.trans hv')
    · exact hsame e hmem k v v' hv hv'
  · intro e hmem e' hmem' k v v' hv hv'
    rcases List.mem_cons.1 hmem with rfl | hmem <;> rcases List.mem_cons.1 hmem' with rfl | hmem'
    · exact Option.some.inj (hv.symm.trans hv')
    · exact (hsame e' hmem' k v' v hv' hv).symm
    · exact hsame e hmem k v v' hv hv'
    · exact hi.seen_seen e hmem e' hmem' k v v' hv hv'

/-- Blocks and relay epochs go forward. -/
def Forward (h : List (RunEvent C)) (s : State C) (op : Op C) : Prop :=
  Completes s op ∧ BlocksIncrease s op ∧ EpochsNeverDecrease h s op

instance (h : List (RunEvent C)) (s : State C) (op : Op C) : Decidable (Forward h s op) :=
  inferInstanceAs (Decidable (_ ∧ _))

theorem writtenOnce_of_run (hr : Machine.Run (machine C) Forward h s) : WrittenOnce h s :=
  Machine.Run.invariant WrittenOnce (fun _ hg => .genesis hg)
    (fun _ _ _ _ hi ha => hi.step ha.2.1 ha.2.2 (exec_effect ha.1)) hr

section Words

omit [DecidableEq AccountId] in
/-- Fewer words of the same randomness and salt are the first of more. -/
theorem computeRandomWords_mono (random : Hash) (salt : H256) {n m : UInt8} (hnm : n ≤ m) :
    Request.computeRandomWords C random salt n <+: Request.computeRandomWords C random salt m := by
  unfold Request.computeRandomWords
  refine List.IsPrefix.map _ ?_
  rw [UInt8.le_iff_toNat_le] at hnm
  rw [← Nat.min_eq_left hnm, ← List.take_range]
  exact List.take_prefix _ _

/-- The words a preparation returns are those of the randomness that is stored. -/
theorem Effect.words_eq {args : FulfillArgs C} (he : Effect s op answer s')
    (ha : answer = .ok (.fulfillArgs args)) :
    ∃ random, s'.held args.request.info.intoType = some random ∧ args.randomness
      = Request.computeRandomWords C random args.request.salt args.request.numWords := by
  cases he with
  | @prepared t id r result randomness hr hd hk hf =>
    simp only [Outcome.ok.injEq, Answer.fulfillArgs.injEq] at ha
    subst ha
    exact ⟨randomness, by simp only [State.held, Results.held, hk, Option.bind_some, hf], rfl⟩
  | _ => simp at ha

/-- **Write-once.** Along a run at most one randomness is ever stored under a key, so what two
preparations return for one key and one salt differs only in length. -/
theorem randomness_written_once (hr : Machine.Run (machine C) Forward h s) :
    (∀ e ∈ h, ∀ e' ∈ h, ∀ k v v', e.after.held k = some v → e'.after.held k = some v' → v = v') ∧
    ∀ e ∈ h, ∀ e' ∈ h, ∀ args args', e.answer = .ok (.fulfillArgs args) →
      e'.answer = .ok (.fulfillArgs args') →
      args.request.info.intoType = args'.request.info.intoType →
      args.request.salt = args'.request.salt →
      args.randomness <+: args'.randomness ∨ args'.randomness <+: args.randomness := by
  have hi := writtenOnce_of_run hr
  have hwords : ∀ e ∈ h, ∀ args, e.answer = .ok (.fulfillArgs args) → ∃ random,
      e.after.held args.request.info.intoType = some random ∧ args.randomness
        = Request.computeRandomWords C random args.request.salt args.request.numWords := by
    intro e he args hargs
    obtain ⟨h', -, -, heff⟩ := effect_of_mem (fun _ _ _ ha => ha.1) hr he
    exact heff.words_eq hargs
  refine ⟨hi.seen_seen, fun e he e' he' args args' hargs hargs' hkey hsalt => ?_⟩
  obtain ⟨random, hheld, hw⟩ := hwords e he args hargs
  obtain ⟨random', hheld', hw'⟩ := hwords e' he' args' hargs'
  rw [← hkey] at hheld'
  obtain rfl := hi.seen_seen e he e' he' _ _ _ hheld hheld'
  rw [hw, hw', ← hsalt]
  rcases UInt8.le_total args.request.numWords args'.request.numWords with hle | hle
  · exact .inl (computeRandomWords_mono random _ hle)
  · exact .inr (computeRandomWords_mono random _ hle)

theorem randomness_written_once_sampled :
    Mock.sampled.2.held (.localVrf (.lit 3)) = some (Vector.replicate 32 0) ∧
      ∀ e ∈ Mock.sampled.1, ∀ e' ∈ Mock.sampled.1, ∀ k v v', e.after.held k = some v →
        e'.after.held k = some v' → v = v' := by
  have hres := randomness_written_once (Mock.run_replayed Mock.sample (by decide +kernel))
  exact ⟨by decide +kernel, hres.1⟩

end Words

section Future

/-- The block or the epoch of a key is strictly after the current one. -/
def Future (s : State C) : RequestType C → Prop
  | .babeEpoch epoch => s.relayEpoch < epoch
  | .localVrf block => s.env.blockNumber < block

omit [DecidableEq AccountId] in
theorem Future.not_past (hf : Future s k) : ¬ Past s k := by
  rcases k with epoch | block
  · exact not_le_of_gt hf
  · exact not_le_of_gt hf

/-- **Future randomness.** An accepted request is for a later block or epoch and nothing is known
of its randomness yet, exactly when it is not for an epoch that is already there. -/
theorem request_future_iff (hr : Machine.Run (machine C) Forward h s) (hmin : MinDelayPositive s)
    {request : Request C (RequestType C)} {id : RequestId}
    (ha : (requestRandomness request s).1 = .ok id) :
    (Future s request.info ∧
      ∀ result, s.randomnessResults.lookup request.info = some result → result.randomness = none)
    ↔ ∀ epoch, request.info = .babeEpoch epoch → s.relayEpoch < epoch := by
  constructor
  · rintro ⟨hf, -⟩ epoch hinfo
    rw [hinfo] at hf
    exact hf
  intro hcond
  have hf : Future s request.info := by
    rcases hinfo : request.info with epoch | block
    · exact hcond epoch hinfo
    · rcases requestRandomness_cases request s true with ⟨e, he⟩ | ⟨id', s'', he, heff⟩
      · rw [he] at ha
        simp at ha
      cases heff with
      | @requested t _ r nextId ledger events hreq hv hn ht =>
        have hinfo' : r.request.info = .localVrf block
            (s.env.blockNumber.saturatingAdd s.env.constants.blockExpirationDelay) := by
          rw [hreq]
          simp only [Request.withInfo, hinfo, RequestType.intoInfo]
        have hle := validate_localVrf hinfo' hv
        unfold MinDelayPositive at hmin
        rw [Future, Uint.lt_iff_val]
        omega
  refine ⟨hf, fun result hl => ?_⟩
  rcases hrand : result.randomness with _ | v
  · rfl
  · have hheld : s.held request.info = some v := by
      simp only [State.held, Results.held, hl, Option.bind_some, hrand]
    exact absurd ((writtenOnce_of_run hr).held_past _ v hheld) hf.not_past

open Mock

/-- A request for epoch 2, and epoch 2 with its randomness. -/
def epochReached : List (RunEvent test) × State test :=
  replayed (block (.lit 1) (.lit 1)
      [.requestRandomness (buildDefaultRequest (.babeEpoch (.lit 2)))]
    ++ block (.lit 2) (.lit 2) [])

theorem request_future_iff_sampled :
    (Future sampled.2 (.localVrf (.lit 5)) ∧ ∀ result,
      sampled.2.randomnessResults.lookup (.localVrf (.lit 5)) = some result →
        result.randomness = none) := by
  have ha : (requestRandomness (buildDefaultRequest (.localVrf (.lit 5))) sampled.2).1
      = .ok (.lit 3) := by decide +kernel
  refine (request_future_iff (run_replayed sample (by decide +kernel)) (by decide +kernel) ha).2 ?_
  rintro epoch ⟨⟩

theorem request_accepted_for_known_epoch :
    Machine.Run (machine test) Forward epochReached.1 epochReached.2 ∧
      MinDelayPositive epochReached.2 ∧
      (requestRandomness (buildDefaultRequest (.babeEpoch (.lit 2))) epochReached.2).1
        = .ok (.lit 1) ∧
      ¬ Future epochReached.2 (.babeEpoch (.lit 2)) ∧
      epochReached.2.held (.babeEpoch (.lit 2)) = some (Vector.replicate 32 0) := by
  refine ⟨run_replayed _ (by decide +kernel), by decide +kernel, by decide +kernel, ?_,
    by decide +kernel⟩
  show ¬ epochReached.2.relayEpoch < _
  decide +kernel

end Future

end Randomness

end Moonkit
