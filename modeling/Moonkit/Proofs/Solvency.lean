import Moonkit.Proofs.RequestCount

/-!
# Solvency

The pallet's account owes every stored request its deposit and fee. Each operation moves at least
as much money as it changes that debt by, whichever refunds fail, so the account covers the debt
along every run and what it has beyond that never decreases.
-/

namespace Moonkit

namespace Randomness

variable {AccountId Hash Ledger : Type} {C : Config AccountId Hash Ledger}

def obligation (r : RequestState C) : ℕ := (r.deposit.saturatingAdd r.request.fee).val

/-- What the pallet owes all stored requests. -/
def obligations (s : State C) : ℕ := s.requests.total obligation

/-- What the pallet's account has beyond what it owes. -/
def surplus (s : State C) : ℤ := (totalLocked s).val - obligations s

theorem FeeGrows.obligation_le {r r' : RequestState C} (h : FeeGrows r r') :
    obligation r ≤ obligation r' := by
  obtain ⟨fee, hle, rfl⟩ := h
  rw [Uint.le_iff_val] at hle
  simp only [obligation, Uint.saturatingAdd_val]
  omega

section Payments

variable {s s' : State C} {dest : AccountId} {amount : Balance C}

theorem transfer_eq_ok {source : AccountId} (h : transfer source dest amount s = (.ok (), s')) :
    ∃ ledger, C.currency.transfer s.ledger source dest amount = .ok ledger
      ∧ s' = { s with ledger := ledger } := by
  rcases ht : C.currency.transfer s.ledger source dest amount with e | ledger
  · rw [transfer_error ht] at h
    simp at h
  · rw [transfer_ok ht, Prod.mk.injEq] at h
    exact ⟨ledger, rfl, h.2.symm⟩

/-- A transfer from the pallet's account takes at most its amount, and all of it unless it comes
back. -/
theorem transfer_pays (h : transfer C.accountId dest amount s = (.ok (), s')) :
    (totalLocked s).val ≤ (totalLocked s').val + amount.val ∧
      (dest ≠ C.accountId → (totalLocked s').val + amount.val = (totalLocked s).val) := by
  obtain ⟨ledger, ht, rfl⟩ := transfer_eq_ok h
  exact ⟨C.currency.transfer_le ht _, fun hd => C.currency.transfer_source hd.symm ht⟩

/-- A logged transfer from the pallet's account takes at most its amount, and all of it unless it
fails or comes back. -/
theorem tryTransfer_pays (h : tryTransferOrLogError C.accountId dest amount s = (.ok (), s')) :
    (totalLocked s).val ≤ (totalLocked s').val + amount.val ∧ s.warnings <+: s'.warnings ∧
      (s'.warnings = s.warnings → dest ≠ C.accountId →
        (totalLocked s').val + amount.val = (totalLocked s).val) := by
  unfold tryTransferOrLogError at h
  rcases ht : C.currency.transfer s.ledger C.accountId dest amount with e | ledger
  · simp only [ht, Prod.mk.injEq] at h
    obtain ⟨-, rfl⟩ := h
    refine ⟨Nat.le_add_right _ _, List.prefix_append _ _, fun hw => ?_⟩
    simp at hw
  · simp only [ht, Prod.mk.injEq] at h
    obtain ⟨-, rfl⟩ := h
    exact ⟨C.currency.transfer_le ht _, List.prefix_refl _,
      fun _ hd => C.currency.transfer_source hd.symm ht⟩

/-- Finishing a fulfilment pays out at most deposit and fee, and all of it if every transfer
succeeds and none goes to the pallet's account. -/
theorem finishFulfill_pays {request : Request C (RequestInfo C)} {deposit cost : Balance C}
    {caller : H160} (hcost : cost ≤ deposit.saturatingAdd request.fee)
    (h : request.finishFulfill deposit caller cost s = (.ok (), s')) :
    (totalLocked s).val ≤ (totalLocked s').val + (deposit.saturatingAdd request.fee).val ∧
      (s'.warnings = s.warnings → C.addressMapping request.refundAddress ≠ C.accountId →
        C.addressMapping caller ≠ C.accountId →
        (totalLocked s').val + (deposit.saturatingAdd request.fee).val = (totalLocked s).val) := by
  unfold Request.finishFulfill at h
  have hle := (deposit.saturatingAdd request.fee).le_max
  rcases hs : (deposit.saturatingAdd request.fee).checkedSub cost with _ | excess
  · exact absurd (Uint.le_iff_val.1 hcost) (not_le_of_gt (Uint.checkedSub_eq_none.1 hs))
  have hsub := Uint.checkedSub_eq_some.1 hs
  simp only [hs] at h
  by_cases hc : request.refundAddress = caller
  · rw [if_pos hc] at h
    obtain ⟨hpay, -, hexact⟩ := tryTransfer_pays h
    have hsum : (excess.saturatingAdd cost).val = (deposit.saturatingAdd request.fee).val := by
      rw [Uint.saturatingAdd_val, hsub]
      exact min_eq_left hle
    rw [hsum] at hpay hexact
    exact ⟨hpay, fun hw hr _ => hexact hw hr⟩
  · rw [if_neg hc] at h
    obtain ⟨⟨⟩, s₁, h₁, h₂⟩ := Call.bind_eq_ok.1 h
    obtain ⟨hpay₁, hpre₁, hexact₁⟩ := tryTransfer_pays h₁
    obtain ⟨hpay₂, hpre₂, hexact₂⟩ := tryTransfer_pays h₂
    refine ⟨by omega, fun hw hr hcaller => ?_⟩
    have hw₁ : s₁.warnings = s.warnings := by
      refine (hpre₁.eq_of_length_le ?_).symm
      exact hw ▸ hpre₂.length_le
    have h₁' := hexact₁ hw₁ hr
    have h₂' := hexact₂ (hw.trans hw₁.symm) hcaller
    omega

/-- An expiration pays out at most deposit and fee, and all of it if the pallet's account is not
the caller. -/
theorem executeExpiration_pays [DecidableEq AccountId] {r : RequestState C} {caller : AccountId}
    (hr : C.addressMapping r.request.contractAddress ≠ C.accountId)
    (h : r.executeExpiration caller s = (.ok (), s')) :
    (totalLocked s).val ≤ (totalLocked s').val + obligation r ∧
      (caller ≠ C.accountId → (totalLocked s').val + obligation r = (totalLocked s).val) := by
  unfold RequestState.executeExpiration at h
  rw [Call.get_bind, Call.ensure_bind] at h
  by_cases hx : r.request.isExpired s = true
  swap
  · rw [if_neg hx] at h
    simp at h
  rw [if_pos hx] at h
  by_cases hc : caller = C.addressMapping r.request.contractAddress
  · simp only [if_pos hc] at h
    exact ⟨(transfer_pays h).1, fun _ => (transfer_pays h).2 hr⟩
  · simp only [if_neg hc] at h
    obtain ⟨⟨⟩, s₁, h₁, h₂⟩ := Call.bind_eq_ok.1 h
    have hfirst := (transfer_pays h₁).2 hr
    obtain ⟨hpay, hexact⟩ := transfer_pays h₂
    have hmax := (totalLocked s).le_max
    have hd := r.deposit.le_max
    simp only [obligation, Uint.saturatingAdd_val]
    by_cases hcaller : caller = C.accountId
    · obtain ⟨ledger, ht, rfl⟩ := transfer_eq_ok h₂
      rw [hcaller] at ht
      have hself : totalLocked { s₁ with ledger := ledger } = totalLocked s₁ :=
        C.currency.transfer_self ht _
      rw [hself]
      exact ⟨by omega, fun hne => absurd hcaller hne⟩
    · have := hexact hcaller
      exact ⟨by omega, fun _ => by omega⟩

end Payments

variable [DecidableEq AccountId]

/-- The pallet's account covers what it owes, and owes nothing to itself. -/
structure Covered (h : List (RunEvent C)) (s : State C) : Prop where
  ids : IdsInOrder h s
  outside : ∀ id r, s.requests.lookup id = some r →
    C.addressMapping r.request.contractAddress ≠ C.accountId
  covers : obligations s ≤ (totalLocked s).val

section Step

variable {h : List (RunEvent C)} {s s' : State C} {op : Op C}
  {answer : Outcome DispatchError (Answer C)}

/-- An operation moves at least as much money to the pallet's account as it adds to the debt. -/
theorem Effect.surplus_le (hi : Covered h s) (ha : Careful h s op)
    (he : Effect s op answer s') :
    obligations s' + (totalLocked s).val ≤ obligations s + (totalLocked s').val := by
  obtain ⟨-, hroll, hreq, hfin, hcost, hdeb⟩ := ha
  cases he with
  | @refused op e ledger hl =>
    have hsame := hl hroll
    subst hsame
    exact le_refl _
  | @requested t request r nextId ledger events hr hv hn ht =>
    have hnew : s.requests.lookup s.requestCount = none := by
      rcases hl : s.requests.lookup s.requestCount with _ | r'
      · rfl
      · exact absurd (hi.ids.stored_lt _ r' hl) (lt_irrefl _)
    have hne : C.addressMapping r.request.contractAddress ≠ C.accountId := by
      rw [hr]
      exact hreq
    have htotal := Finmap.total_insert_new (f := obligation) (v := r) hnew
    have hpay := C.currency.transfer_dest hne ht
    simp only [obligations, totalLocked, obligation] at htotal ⊢
    omega
  | @feeIncreased t caller id feeIncrease newFee r ledger hr hc hf ht =>
    have hne : C.addressMapping caller ≠ C.accountId := hc ▸ hi.outside id r hr
    have htotal := Finmap.total_insert_add (f := obligation)
      (v := { r with request := { r.request with fee := newFee } }) hr
    have hpay := C.currency.transfer_dest hne ht
    simp only [obligations, totalLocked, obligation, Uint.saturatingAdd_val] at htotal ⊢
    omega
  | prepared _ _ _ _ => exact le_refl _
  | @finished t id request deposit caller cost ledger warnings hp =>
    obtain ⟨hmem, hsome⟩ := hfin
    obtain ⟨r, hr⟩ := Option.isSome_iff_exists.1 hsome
    have hgrow := (hi.ids.prepared_grows id _ r hmem hr).obligation_le
    have htotal := Finmap.total_erase_add (f := obligation) hr
    have hpay := (finishFulfill_pays hcost hp).1
    simp only [obligations, totalLocked, obligation] at htotal hgrow hpay ⊢
    omega
  | @expired t caller id r ledger hr hp =>
    have htotal := Finmap.total_erase_add (f := obligation) hr
    have hpay := (executeExpiration_pays (hi.outside id r hr) hp).1
    simp only [obligations, totalLocked] at htotal hpay ⊢
    omega
  | babeSet _ => exact le_refl _
  | blockStarted _ => exact le_refl _
  | blockEnded => exact le_refl _
  | elsewhere => exact Nat.add_le_add_left (Uint.le_iff_val.1 hdeb) _

theorem Covered.step (hi : Covered h s) (ha : Careful h s op) (he : Effect s op answer s') :
    Covered (⟨s, op, answer, s'⟩ :: h) s' := by
  refine ⟨hi.ids.step he, fun id r' hr' => ?_, ?_⟩
  · rcases he.stored_cases hr' with ⟨-, -, request, hop, rfl⟩ | ⟨r, hr, fee, -, rfl⟩
    · have hreq := ha.requester
      unfold RequesterOutside at hreq
      rw [hop] at hreq
      exact hreq
    · exact hi.outside id r hr
  · have := he.surplus_le hi ha
    have := hi.covers
    omega

end Step

omit [DecidableEq AccountId] in
theorem Covered.genesis {s : State C} (hg : Genesis s) : Covered [] s := by
  refine ⟨.genesis hg, fun id r hr => ?_, ?_⟩
  · rw [hg.1] at hr
    simp at hr
  · simp [obligations, hg.1]

theorem covered_of_run {allow : List (RunEvent C) → State C → Op C → Prop}
    (ha : ∀ h s op, allow h s op → Careful h s op) {h : List (RunEvent C)} {s : State C}
    (hr : Machine.Run (machine C) allow h s) : Covered h s :=
  Machine.Run.invariant Covered (fun _ hg => .genesis hg) (fun h s op _ hi hop =>
    hi.step (ha h s op hop) (exec_effect (ha h s op hop).completes)) hr

/-- **Solvency.** The pallet's account always covers deposit and fee of every stored request, and
what it has beyond them never decreases. -/
theorem locked_covers_stored_requests {h : List (RunEvent C)} {s : State C}
    (hr : Machine.Run (machine C) Careful h s) :
    obligations s ≤ (totalLocked s).val ∧ ∀ e ∈ h, surplus e.before ≤ surplus e.after := by
  refine ⟨(covered_of_run (fun _ _ _ ha => ha) hr).covers, fun e he => ?_⟩
  obtain ⟨h', hr', ha, heff⟩ := effect_of_mem (fun _ _ _ ha => ha.completes) hr he
  have hle := heff.surplus_le (covered_of_run (fun _ _ _ ha => ha) hr') ha
  simp only [surplus]
  omega

theorem locked_covers_stored_requests_sampled :
    obligations Mock.sampled.2 = 15 ∧ (totalLocked Mock.sampled.2).val = 15 ∧
      ∀ e ∈ Mock.sampled.1, surplus e.before ≤ surplus e.after := by
  have hres := locked_covers_stored_requests (Mock.run_replayed Mock.sample (by decide +kernel))
  exact ⟨by decide +kernel, by decide +kernel, hres.2⟩

end Randomness

end Moonkit
