import Mathlib.Data.List.Perm.Basic
import Moonkit.AuthorSlotFilter

/-!
# Eligible authors

Each pass of the filter moves one author from the active list to the eligible one, so the two stay a
permutation of the input, and there is an author to move as long as the count is bounded by the
length of the input. The count itself is never zero: every writer makes it with a constructor that
refuses zero, or with the default. So in every slot somebody is eligible.
-/

namespace Moonkit

namespace AuthorSlotFilter

variable {AccountId : Type} {s : State AccountId}

section Loop

/-- One pass: some author of the active list is moved. -/
theorem draw_ok {α : Type} (n : ℕ) {active : List α} (h : active ≠ []) :
    ∃ index author rest, (Outcome.rem n active.length : Outcome DispatchError ℕ) = .ok index ∧
      (Outcome.remove active index : Outcome DispatchError (α × List α)) = .ok (author, rest) ∧
      (author :: rest).Perm active := by
  have hpos : 0 < active.length := List.length_pos_iff.2 h
  have hlt : n % active.length < active.length := Nat.mod_lt n hpos
  refine ⟨n % active.length, active[n % active.length], active.eraseIdx (n % active.length),
    ?_, ?_, List.getElem_cons_eraseIdx_perm hlt⟩
  · rw [Outcome.rem, if_neg hpos.ne']
  · rw [Outcome.remove, dif_pos hlt]

/-- As many passes as there are active authors, or fewer, never panic. -/
theorem selectEligible_ok (random : Vector UInt8 12 → H256) (seed : U32) :
    ∀ (n i : ℕ) (eligible active : List AccountId), n ≤ active.length →
      ∃ eligible' active', selectEligible random seed n i eligible active =
          .ok (eligible', active') ∧
        (eligible' ++ active').Perm (eligible ++ active) ∧
        eligible'.length = eligible.length + n
  | 0, _, eligible, active, _ => ⟨eligible, active, rfl, .refl _, rfl⟩
  | n + 1, i, eligible, active, h => by
    have hne : active ≠ [] := by
      rintro rfl
      simp at h
    obtain ⟨index, author, rest, hrem, hremove, hperm⟩ := draw_ok (sample random i seed) hne
    have hlength : n ≤ rest.length := by
      have := hperm.length_eq
      rw [List.length_cons] at this
      omega
    obtain ⟨eligible', active', hloop, hperm', hlength'⟩ :=
      selectEligible_ok random seed n (i + 1) (eligible ++ [author]) rest hlength
    refine ⟨eligible', active', ?_, ?_, ?_⟩
    · unfold selectEligible
      rw [hrem]
      show (Outcome.remove active index >>= _) = _
      rw [hremove]
      exact hloop
    · refine hperm'.trans ?_
      rw [List.append_assoc, List.singleton_append]
      exact hperm.append_left eligible
    · rw [hlength', List.length_append, List.length_singleton]
      omega

/-- The subset is a part of the input, of the size that is asked for or the whole of it. -/
theorem computePseudoRandomSubset_ok (s : State AccountId) (active : List AccountId) (seed : U32) :
    ∃ eligible ineligible, computePseudoRandomSubset s active seed = .ok (eligible, ineligible) ∧
      (eligible ++ ineligible).Perm active ∧
      eligible.length = min s.getEligibleCount.get.val active.length := by
  have hmin : (if s.getEligibleCount.get.val > active.length then active.length
      else s.getEligibleCount.get.val) = min s.getEligibleCount.get.val active.length := by
    split_ifs <;> omega
  obtain ⟨eligible, ineligible, hloop, hperm, hlength⟩ := selectEligible_ok s.random seed
    (min s.getEligibleCount.get.val active.length) 0 [] active (min_le_right _ _)
  refine ⟨eligible, ineligible, ?_, hperm, by simpa using hlength⟩
  unfold computePseudoRandomSubset
  simp only [hmin]
  exact hloop

end Loop

section Count

/-- The stored count, or the default where there is none, is not zero. -/
def CountNonZero (s : State AccountId) : Prop := s.getEligibleCount.get ≠ 0

theorem new_eq_some {n : U32} {m : NonZeroU32} (h : NonZeroU32.new n = some m) : m.get ≠ 0 := by
  unfold NonZeroU32.new at h
  split_ifs at h with hn
  obtain rfl := Option.some.inj h
  exact hn

theorem decode_ne_zero {input : List UInt8} {m : NonZeroU32} (h : NonZeroU32.decode input = .ok m) :
    m.get ≠ 0 := by
  unfold NonZeroU32.decode at h
  rcases hb : Bytes.decode 4 input with _ | bytes <;> rw [hb] at h
  · cases h
  · rcases hn : NonZeroU32.new (fromLeBytes bytes) with _ | n <;> simp only [hn] at h
    · cases h
    · cases h
      exact new_eq_some hn

theorem deserialize_ne_zero {value : Except String U32} {m : NonZeroU32}
    (h : NonZeroU32.deserialize value = .ok m) : m.get ≠ 0 := by
  unfold NonZeroU32.deserialize at h
  rcases value with e | n
  · cases h
  · simp only [bind, Except.bind] at h
    rcases hn : NonZeroU32.new n with _ | nonzero <;> rw [hn] at h
    · cases h
    · cases h
      exact new_eq_some hn

theorem default_ne_zero : EligibilityValue.default.get ≠ 0 := by decide

theorem configured_ne_zero {n : EligibilityValue} (h : Configured n) : n.get ≠ 0 := by
  cases h with
  | default => exact default_ne_zero
  | scale h => exact decode_ne_zero h
  | serde h => exact deserialize_ne_zero h

theorem countNonZero_step {op : Op AccountId} (hs : CountNonZero s) :
    CountNonZero (op.run s).2 := by
  cases op with
  | setEligible origin new =>
    simp only [Op.run]
    rcases hnew : NonZeroU32.decode new with e | n
    · exact hs
    · cases origin with
      | root => exact decode_ne_zero hnew
      | _ => exact hs
  | onRuntimeUpgrade =>
    show ((NonZeroU32.new _).getD EligibilityValue.default).get ≠ 0
    rcases hn : NonZeroU32.new (s.getEligibleRatio.mulCeil (asU32 s.potentialAuthors.length))
      with _ | n
    · exact default_ne_zero
    · exact new_eq_some hn
  | onInitialize usingFakeAuthor =>
    cases usingFakeAuthor with
    | true => exact hs
    | false => exact hs
  | elsewhere potentialAuthors random => exact hs

theorem countNonZero_of_run {h : List (RunEvent AccountId)} (hr : Run AccountId h s) :
    CountNonZero s := by
  refine hr.invariant (fun _ s => CountNonZero s) ?_ fun _ _ _ _ hs _ => countNonZero_step hs
  rintro s (hnone | ⟨n, s₀, hn, rfl⟩)
  · rw [CountNonZero, State.getEligibleCount, hnone]
    exact default_ne_zero
  · exact configured_ne_zero hn

end Count

variable [DecidableEq AccountId]

theorem canAuthor_eq {author : AccountId} {slot : U32} {eligible ineligible : List AccountId}
    (hfake : s.isFakeAuthor = false)
    (h : computePseudoRandomSubset s s.potentialAuthors slot = .ok (eligible, ineligible)) :
    canAuthor s author slot = .ok (decide (author ∈ eligible)) := by
  unfold canAuthor
  rw [hfake, if_neg Bool.false_ne_true, h]
  show Outcome.ok (eligible.contains author) = _
  rw [List.contains_eq_mem]

/-- **Eligible authors.** In every state of a run and for every slot, the subset of a list is
computed without a panic, with the ineligible ones it is a permutation of the list, and it has as
many elements as the count says or the list has. So without fake authors only potential authors are
eligible, all of them where the count is at least their number, and some author of a nonempty list
always is. -/
theorem eligible_authors {h : List (RunEvent AccountId)} (hr : Run AccountId h s) (slot : U32) :
    (∀ active : List AccountId, ∃ eligible ineligible,
      computePseudoRandomSubset s active slot = .ok (eligible, ineligible) ∧
      (eligible ++ ineligible).Perm active ∧
      eligible.length = min s.getEligibleCount.get.val active.length) ∧
    (s.isFakeAuthor = false →
      (∀ a, ∃ b, canAuthor s a slot = .ok b) ∧
      (∀ a, canAuthor s a slot = .ok true → a ∈ s.potentialAuthors) ∧
      (s.potentialAuthors.length ≤ s.getEligibleCount.get.val →
        ∀ a ∈ s.potentialAuthors, canAuthor s a slot = .ok true) ∧
      (s.potentialAuthors ≠ [] → ∃ a ∈ s.potentialAuthors, canAuthor s a slot = .ok true)) := by
  refine ⟨fun active => computePseudoRandomSubset_ok s active slot, fun hfake => ?_⟩
  obtain ⟨eligible, ineligible, hsubset, hperm, hlength⟩ :=
    computePseudoRandomSubset_ok s s.potentialAuthors slot
  have hmem {a : AccountId} (ha : a ∈ eligible) : a ∈ s.potentialAuthors :=
    hperm.subset (List.mem_append_left _ ha)
  simp only [canAuthor_eq hfake hsubset, Outcome.ok.injEq, decide_eq_true_eq]
  refine ⟨fun a => ⟨_, rfl⟩, fun a => hmem, fun hcount a ha => ?_, fun hne => ?_⟩
  · have hnil : ineligible = [] := by
      have hsum := hperm.length_eq
      rw [List.length_append] at hsum
      exact List.length_eq_zero_iff.1 (by omega)
    rw [hnil, List.append_nil] at hperm
    exact hperm.symm.subset ha
  · have hcount : 0 < s.getEligibleCount.get.val :=
      Nat.pos_of_ne_zero fun hzero => countNonZero_of_run hr (Uint.ext_val hzero)
    have hpos : 0 < eligible.length := by
      rw [hlength]
      exact lt_min hcount (List.length_pos_iff.2 hne)
    obtain ⟨a, ha⟩ := List.exists_mem_of_length_pos hpos
    exact ⟨a, hmem ha, ha⟩

/-- A genesis with three potential authors of which one is eligible, chosen with zero randomness. -/
def oneOfThree : State ℕ :=
  build (.newUnchecked (.lit 1)) ⟨none, none, false, [], [7, 8, 9], fun _ => .replicate 32 0⟩

theorem eligible_authors_test :
    canAuthor oneOfThree 7 (.lit 5) = .ok true ∧ canAuthor oneOfThree 8 (.lit 5) = .ok false ∧
      ∃ a ∈ [7, 8, 9], canAuthor oneOfThree a (.lit 6) = .ok true := by
  have hrun : Run ℕ [] oneOfThree := by
    have hone : NonZeroU32.deserialize (.ok (.lit 1)) = .ok _ := rfl
    exact .start (.inr ⟨_, _, .serde hone, rfl⟩)
  refine ⟨by decide +kernel, by decide +kernel, ?_⟩
  exact ((eligible_authors hrun (.lit 6)).2 rfl).2.2.2 (by decide)

end AuthorSlotFilter

end Moonkit
