import Moonkit.Base.Holdings
import Moonkit.Proofs.Allowances

/-!
# The balances precompile as a token

To its holders an instance of the precompile is a token with allowances: a call that answers is one
act on the holdings and adds the log of that act, and one that does not answer is none
(`call_refines`). So a run of the precompile is a run of the holdings, and what holds of every run
of holdings holds of the balances.
-/

namespace Moonkit

namespace Erc20Balances

open Precompile Machine

variable {D A L M : Type} {max : ℕ} {cfg : Config D A L M max}

section Requests

variable (cfg) in
/-- What the state is to the holders. -/
def holdings (s : State D A L max) : Holdings A where
  balance a := (cfg.currency.freeBalance s.ledger a).val
  allowance := allowance s

variable (cfg) in
/-- What a call that answers does to the holdings. -/
def act (ctx : Context) : Request → Option (Holdings.Act A)
  | .approve spender value => some (.approve (cfg.intoAccountId ctx.caller)
      (cfg.intoAccountId spender) (min value.val max))
  | .transfer to_ value => some (.move (cfg.intoAccountId ctx.caller)
      (cfg.intoAccountId ctx.caller) (cfg.intoAccountId to_) value.val)
  | .transferFrom from_ to_ value => some (.move (cfg.intoAccountId ctx.caller)
      (cfg.intoAccountId from_) (cfg.intoAccountId to_) value.val)
  | .deposit => some (.move (cfg.intoAccountId ctx.address) (cfg.intoAccountId ctx.address)
      (cfg.intoAccountId ctx.caller) ctx.apparentValue.val)
  | .withdraw _ => none
  | .permit owner spender value _ _ => some (.approve (cfg.intoAccountId owner)
      (cfg.intoAccountId spender) (min value.val max))

variable (cfg) in
def logOf (ctx : Context) : Request → Log D
  | .approve spender value =>
    log3 ctx.address (selectorLogApproval cfg) ctx.caller spender value
  | .transfer to_ value => log3 ctx.address (selectorLogTransfer cfg) ctx.caller to_ value
  | .transferFrom from_ to_ value => log3 ctx.address (selectorLogTransfer cfg) from_ to_ value
  | .deposit => log2 ctx.address (selectorLogDeposit cfg) ctx.caller ctx.apparentValue
  | .withdraw value => log2 ctx.address (selectorLogWithdrawal cfg) ctx.caller value
  | .permit owner spender value _ _ =>
    log3 ctx.address (selectorLogApproval cfg) owner spender value

/-- A transfer of the currency moves the amount between the balances. -/
theorem moved_of_transfer (C : ExpendableCurrency A L max) {l l' : L} {a b : A} {n : Uint max}
    (h : C.transferAllowDeath l a b n = .ok l') : Holdings.Moved a b n.val
      (fun c => (C.freeBalance l c).val) (fun c => (C.freeBalance l' c).val) where
  self hab := by
    subst hab
    exact funext fun c => congrArg Uint.val (C.transfer_self h c)
  taken hab := C.transfer_source hab h
  brought hab := C.transfer_dest hab h
  other c ha hb := congrArg Uint.val (C.transfer_other h c ha hb)

variable [DecidableEq A] {ctx : Context} {s s' : State D A L max} {m : M}
  {p' : State D A L max × M} {r : Request}

theorem holdings_insertApproval (f : A → A → Option (Uint max)) (o sp : A) (v : Uint max) :
    (fun o' sp' => ((insertApproval f o sp v o' sp').getD 0).val)
      = Holdings.setAllowance (fun o' sp' => ((f o' sp').getD 0).val) o sp v.val := by
  refine Holdings.eq_setAllowance (by rw [insertApproval_self, Option.getD_some]) ?_
  intro o' sp' h
  rw [insertApproval_of_ne h]

omit [DecidableEq A] in
theorem deposit_transfers {u : Unit} (h : deposit cfg ctx (s, m) = (.ok u, p')) :
    ∃ amount : Uint max, amount.val = ctx.apparentValue.val ∧
      cfg.currency.transferAllowDeath s.ledger (cfg.intoAccountId ctx.address)
        (cfg.intoAccountId ctx.caller) amount = .ok p'.1.ledger ∧
      p'.1.approves = s.approves ∧ p'.1.logs = s.logs ++ [logOf cfg ctx .deposit] := by
  unfold deposit at h
  obtain ⟨-, h⟩ := Call.ensure_bind_eq_ok.1 h
  obtain ⟨amount, hamount, h⟩ := Call.okOr_bind_eq_ok.1 h
  obtain ⟨-, h⟩ := Call.ensure_bind_eq_ok.1 h
  obtain ⟨m₁, -, h⟩ := meter_bind_eq_ok.1 h
  obtain ⟨w, p₁, hmove, h⟩ := Call.bind_eq_ok.1 h
  obtain ⟨l, hl, hp₁⟩ := dispatchTransfer_eq_ok hmove
  rw [record_eq_ok h, hp₁]
  exact ⟨amount, U256.tryInto_eq_some.1 hamount, hl, rfl, rfl⟩

theorem transferFrom_logs {from_ to_ : H160} {value : U256} {b : Bool}
    (h : transferFrom cfg ctx from_ to_ value (s, m) = (.ok b, p')) :
    p'.1.logs = s.logs ++ [logOf cfg ctx (.transferFrom from_ to_ value)] := by
  unfold transferFrom at h
  obtain ⟨m₁, -, h⟩ := meter_bind_eq_ok.1 h
  obtain ⟨m₂, -, h⟩ := meter_bind_eq_ok.1 h
  obtain ⟨m₃, -, h⟩ := meter_bind_eq_ok.1 h
  obtain ⟨amount, -, h⟩ := Call.okOr_bind_eq_ok.1 h
  obtain ⟨u, p₂, hspend, h⟩ := Call.bind_eq_ok.1 h
  obtain ⟨v, p₃, hmove, h⟩ := Call.bind_eq_ok.1 h
  obtain ⟨l, -, hp₃⟩ := dispatchTransfer_eq_ok hmove
  obtain ⟨w, p₄, hlog, h⟩ := Call.bind_eq_ok.1 h
  obtain ⟨-, rfl⟩ := Prod.mk.inj h
  rw [record_eq_ok hlog, hp₃]
  split_ifs at hspend
  · obtain ⟨-, rfl⟩ := Prod.mk.inj hspend
    rfl
  · obtain ⟨allowed, rest, -, -, hp₂⟩ := spendAllowance_eq_ok hspend
    rw [hp₂]
    rfl

/-- A call that answers adds its log. -/
theorem run_logs {u : Unit} (h : run cfg ctx r (s, m) = (.ok u, p')) :
    p'.1.logs = s.logs ++ [logOf cfg ctx r] := by
  cases r with
  | approve spender value =>
    obtain ⟨b, hb⟩ := Call.exists_of_drop h
    unfold approve at hb
    obtain ⟨m₁, -, hb⟩ := meter_bind_eq_ok.1 hb
    obtain ⟨m₂, -, hb⟩ := meter_bind_eq_ok.1 hb
    rw [write_bind] at hb
    obtain ⟨v, p₁, hlog, hb⟩ := Call.bind_eq_ok.1 hb
    obtain ⟨-, rfl⟩ := Prod.mk.inj hb
    rw [record_eq_ok hlog]
    rfl
  | transfer to_ value =>
    obtain ⟨b, hb⟩ := Call.exists_of_drop h
    unfold transfer at hb
    obtain ⟨m₁, -, hb⟩ := meter_bind_eq_ok.1 hb
    obtain ⟨amount, -, hb⟩ := Call.okOr_bind_eq_ok.1 hb
    obtain ⟨v, p₂, hmove, hb⟩ := Call.bind_eq_ok.1 hb
    obtain ⟨l, -, hp₂⟩ := dispatchTransfer_eq_ok hmove
    obtain ⟨w, p₃, hlog, hb⟩ := Call.bind_eq_ok.1 hb
    obtain ⟨-, rfl⟩ := Prod.mk.inj hb
    rw [record_eq_ok hlog, hp₂]
    rfl
  | transferFrom from_ to_ value =>
    obtain ⟨b, hb⟩ := Call.exists_of_drop h
    exact transferFrom_logs hb
  | deposit =>
    obtain ⟨amount, -, -, -, hlogs⟩ := deposit_transfers h
    exact hlogs
  | withdraw value =>
    have hw : withdraw cfg ctx value (s, m) = (.ok u, p') := h
    unfold withdraw at hw
    obtain ⟨-, hw⟩ := Call.ensure_bind_eq_ok.1 hw
    obtain ⟨m₁, -, hw⟩ := meter_bind_eq_ok.1 hw
    rw [storage_bind] at hw
    obtain ⟨-, hw⟩ := Call.ensure_bind_eq_ok.1 hw
    rw [record_eq_ok hw]
    rfl
  | permit owner spender value deadline sig =>
    have hp : permit cfg ctx owner spender value deadline sig (s, m) = (.ok u, p') := h
    unfold permit at hp
    obtain ⟨m₁, -, hp⟩ := meter_bind_eq_ok.1 hp
    rw [storage_bind] at hp
    obtain ⟨-, hp⟩ := Call.ensure_bind_eq_ok.1 hp
    obtain ⟨-, hp⟩ := ensureSigned_bind_eq_ok hp
    obtain ⟨next, -, hp⟩ := Call.expect_bind_eq_ok.1 hp
    rw [write_bind, write_bind] at hp
    rw [record_eq_ok hp]
    rfl

/-- An approval, as the holders see it. -/
theorem step_approve {o sp : A} {v : Uint max} {n : ℕ} (hv : v.val = n)
    (happroves : s'.approves = insertApproval s.approves o sp v) (hledger : s'.ledger = s.ledger) :
    Holdings.Step Holdings.Moved (holdings cfg s) (.approve o sp n) (holdings cfg s') := by
  have hset : holdings cfg s' = { holdings cfg s with
      allowance := Holdings.setAllowance (holdings cfg s).allowance o sp n } := by
    refine Holdings.ext (by simp only [holdings, hledger]) ?_
    show (fun o' sp' => ((s'.approves o' sp').getD 0).val) = _
    rw [happroves, holdings_insertApproval, hv]
    rfl
  rw [hset]
  exact .approve

omit [DecidableEq A] in
theorem moved_of_ledger {a b : A} {amount : Uint max} {n : ℕ} (hv : amount.val = n)
    (hmove : cfg.currency.transferAllowDeath s.ledger a b amount = .ok s'.ledger) :
    Holdings.Moved a b n (holdings cfg s).balance (holdings cfg s').balance := by
  rw [← hv]
  exact moved_of_transfer cfg.currency hmove

theorem step_transfer {a b : A} {amount : Uint max} {n : ℕ} (hv : amount.val = n)
    (hmove : cfg.currency.transferAllowDeath s.ledger a b amount = .ok s'.ledger)
    (happroves : s'.approves = s.approves) :
    Holdings.Step Holdings.Moved (holdings cfg s) (.move a a b n) (holdings cfg s') := by
  have hset : holdings cfg s' = { holdings cfg s with balance := (holdings cfg s').balance } :=
    Holdings.ext rfl (funext₂ fun o sp => by simp only [holdings, allowance, happroves])
  rw [hset]
  exact .transfer (moved_of_ledger hv hmove)

theorem step_transferFrom {caller a b : A} {amount allowed rest : Uint max} {n : ℕ}
    (hne : caller ≠ a) (hv : amount.val = n) (hallowed : s.approves a caller = some allowed)
    (hrest : allowed.checkedSub amount = some rest)
    (hmove : cfg.currency.transferAllowDeath s.ledger a b amount = .ok s'.ledger)
    (happroves : s'.approves = insertApproval s.approves a caller rest) :
    Holdings.Step Holdings.Moved (holdings cfg s) (.move caller a b n) (holdings cfg s') := by
  have hsub := Uint.checkedSub_eq_some.1 hrest
  have hbefore : (holdings cfg s).allowance a caller = allowed.val := by
    simp only [holdings, allowance, hallowed, Option.getD_some]
  have hset : holdings cfg s' = ⟨(holdings cfg s').balance, Holdings.setAllowance
      (holdings cfg s).allowance a caller ((holdings cfg s).allowance a caller - n)⟩ := by
    refine Holdings.ext rfl ?_
    show (fun o' sp' => ((s'.approves o' sp').getD 0).val) = _
    rw [happroves, holdings_insertApproval, hbefore, show allowed.val - n = rest.val by omega]
    rfl
  rw [hset]
  exact .transferFrom hne (by omega) (moved_of_ledger hv hmove)

/-- What was written by a call other than a deposit is the act of the call. -/
theorem Wrote.does (hw : Wrote cfg ctx s r s') (hr : r ≠ .deposit) :
    Holdings.Does Holdings.Moved (holdings cfg s) (act cfg ctx r) (holdings cfg s') := by
  cases hw with
  | deposit logs => exact absurd rfl hr
  | withdraw logs => rfl
  | @approve spender value logs => exact step_approve (U256.saturatingInto_val max value) rfl rfl
  | @permit owner spender value deadline next sig logs _ _ _ =>
    exact step_approve (U256.saturatingInto_val max value) rfl rfl
  | transfer logs hvalue hmove => exact step_transfer hvalue hmove rfl
  | transferByOwner logs howner hvalue hmove =>
    simp only [act, howner]
    exact step_transfer hvalue hmove rfl
  | transferBySpender logs hne hvalue hallowed hrest hmove =>
    exact step_transferFrom hne hvalue hallowed hrest hmove rfl

/-- A call is one act and adds its log, or it does not answer and leaves the state. -/
theorem call_refines (cfg : Config D A L M max) (ctx : Context) (gas : M) (r : Request)
    (s : State D A L max) :
    (call cfg ctx gas r s).1 = .ok () ∧
      (call cfg ctx gas r s).2.logs = s.logs ++ [logOf cfg ctx r] ∧
      Holdings.Does Holdings.Moved (holdings cfg s) (act cfg ctx r)
        (holdings cfg (call cfg ctx gas r s).2) ∨
    (call cfg ctx gas r s).1 ≠ .ok () ∧ (call cfg ctx gas r s).2 = s := by
  rcases call_cases cfg ctx gas r s with ⟨hok, hw⟩ | hfail
  · obtain ⟨p', hcall⟩ : ∃ p', (run cfg ctx r).transactional (s, gas) = (.ok (), p') :=
      ⟨_, Prod.ext hok rfl⟩
    have hrun := Call.transactional_eq_ok.1 hcall
    have hstate : (call cfg ctx gas r s).2 = p'.1 := by simp [call, hcall]
    rw [hstate] at hw ⊢
    refine .inl ⟨hok, run_logs hrun, ?_⟩
    by_cases hr : r = .deposit
    · subst hr
      obtain ⟨amount, hv, hmove, happroves, -⟩ := deposit_transfers hrun
      exact step_transfer hv hmove happroves
    · exact hw.does hr
  · exact .inr hfail

end Requests

section Runs

variable [DecidableEq A] {h : List (Ev D A L M max)} {s : State D A L max}

variable (cfg) in
/-- What an event does to the holdings. -/
def actOf (e : Ev D A L M max) : Option (Holdings.Act A) :=
  match e.op with
  | .call ctx _ r => if e.answer = .ok () then act cfg ctx r else none
  | .elsewhere _ => some .outside
  | .setTime _ => none

variable (cfg) in
def logged (e : Ev D A L M max) : Option (Log D) :=
  match e.op with
  | .call ctx _ r => if e.answer = .ok () then some (logOf cfg ctx r) else none
  | _ => none

variable (cfg) in
/-- One operation is at most one act, and adds at most one log. -/
theorem event_refines (s : State D A L max) (op : Op L M) :
    Holdings.Does Holdings.Moved (holdings cfg s) (actOf cfg ((machine cfg).event s op))
      (holdings cfg ((machine cfg).exec s op).2) ∧
    ((machine cfg).exec s op).2.logs
      = s.logs ++ (logged cfg ((machine cfg).event s op)).toList := by
  cases op with
  | setTime now => exact ⟨rfl, (List.append_nil _).symm⟩
  | elsewhere ledger => exact ⟨.outside, (List.append_nil _).symm⟩
  | call ctx gas r =>
    have hexec : (machine cfg).exec s (.call ctx gas r) = call cfg ctx gas r s := rfl
    simp only [actOf, logged, Machine.event, hexec]
    rcases call_refines cfg ctx gas r s with ⟨hok, hlogs, hact⟩ | ⟨hne, hsame⟩
    · rw [if_pos hok, if_pos hok]
      exact ⟨hact, hlogs⟩
    · rw [if_neg hne, if_neg hne, hsame]
      exact ⟨rfl, (List.append_nil _).symm⟩

variable {allow : List (Ev D A L M max) → State D A L max → Op L M → Prop}

theorem run_holdings (hr : (machine cfg).Run allow h s) :
    Holdings.Run Holdings.Moved (holdings cfg (origin h s)) (h.filterMap (actOf cfg))
      (holdings cfg s) :=
  Holdings.run_of_machine (holdings cfg) (actOf cfg) (fun s op => (event_refines cfg s op).1) hr

/-- **Token refinement.** A run of the precompile is a run of the holdings whose acts are those of
the calls that answered, and its logs are the logs of these calls, in their order. -/
theorem refines_token (hr : (machine cfg).Run (fun _ _ _ => True) h s) :
    Holdings.Run Holdings.Moved (holdings cfg (origin h s)) (h.filterMap (actOf cfg))
        (holdings cfg s) ∧
      s.logs = (origin h s).logs ++ h.reverse.filterMap (logged cfg) :=
  ⟨run_holdings hr, hr.written_eq State.logs (logged cfg) fun s op => (event_refines cfg s op).2⟩

/-- The acts and the logs of the calls of the example: bob spends twice of what alith approved, and
his last call does not answer. -/
theorem refines_token_permit :
    Holdings.Run Holdings.Moved (holdings exampleConfig (origin exampleRun.1 exampleRun.2))
        [.move Mock.bob Mock.alith Mock.charlie 20, .approve Mock.alith Mock.bob 50,
          .move Mock.bob Mock.alith Mock.charlie 30, .approve Mock.alith Mock.bob 100]
        (holdings exampleConfig exampleRun.2) ∧
      exampleRun.2.logs.length = 4 := by
  obtain ⟨hacts, hlogs⟩ := refines_token run_exampleRun
  refine ⟨hacts, ?_⟩
  rw [hlogs]
  rfl

omit [DecidableEq A] in
/-- The acts are of the holders, but for the balances that change elsewhere. -/
theorem actOf_cases {e : Ev D A L M max} {act : Holdings.Act A} (hact : actOf cfg e = some act) :
    act.Own ∨ act = .outside ∧ ∃ l, e.op = .elsewhere l := by
  rcases hop : e.op with ⟨ctx, gas, r⟩ | now | ledger <;> simp only [actOf, hop] at hact
  · split_ifs at hact
    cases r <;> cases hact <;> exact .inl ⟨nofun, nofun⟩
  · cases hact
  · cases hact
    exact .inr ⟨rfl, ledger, rfl⟩

omit [DecidableEq A] in
theorem replaced_not_mem : .replaced ∉ h.filterMap (actOf cfg) := by
  intro hmem
  obtain ⟨e, -, hact⟩ := List.mem_filterMap.1 hmem
  rcases actOf_cases hact with hown | ⟨hout, -⟩
  · exact hown.2 rfl
  · cases hout

theorem acts_own (hr : (machine cfg).Run (fun _ _ op => ∀ l, op ≠ .elsewhere l) h s) :
    ∀ act ∈ h.filterMap (actOf cfg), act.Own := by
  rintro act hmem
  obtain ⟨e, he, hact⟩ := List.mem_filterMap.1 hmem
  obtain ⟨h', -, hallow, -⟩ := hr.mem_event he
  rcases actOf_cases hact with hown | ⟨-, l, hl⟩
  · exact hown
  · exact absurd hl (hallow l)

/-- **Balances by consent.** While balances move by calls alone, no account has more than it had and
received, less what was taken from it; an account has all of it as long as nothing is moved from it,
by a transfer of its own, by a spender, or back out of the contract. Spenders have never spent more
of an account than it approved for them in total. And nothing is made: what the accounts taking part
have together does not grow. -/
theorem balances_by_consent
    (hr : (machine cfg).Run (fun _ _ op => ∀ l, op ≠ .elsewhere l) h s) :
    (∀ a, (cfg.currency.freeBalance s.ledger a).val
        + ((h.filterMap (actOf cfg)).map (Holdings.Act.out a)).sum
      ≤ (cfg.currency.freeBalance (origin h s).ledger a).val
        + ((h.filterMap (actOf cfg)).map (Holdings.Act.into a)).sum) ∧
    (∀ a, (∀ caller dest n, .move caller a dest n ∉ h.filterMap (actOf cfg)) →
      (cfg.currency.freeBalance s.ledger a).val
        = (cfg.currency.freeBalance (origin h s).ledger a).val
          + ((h.filterMap (actOf cfg)).map (Holdings.Act.into a)).sum) ∧
    (∀ a sp, sp ≠ a → ((h.filterMap (actOf cfg)).map (Holdings.Act.spent a sp)).sum
        + allowance s a sp
      ≤ ((h.filterMap (actOf cfg)).map (Holdings.Act.granted a sp)).sum) ∧
    ∀ S : Finset A, (∀ act ∈ h.filterMap (actOf cfg), ∀ a, act.About a → a ∈ S) →
      ∑ a ∈ S, (cfg.currency.freeBalance s.ledger a).val
        ≤ ∑ a ∈ S, (cfg.currency.freeBalance (origin h s).ledger a).val := by
  have hrun := run_holdings hr
  have hown := acts_own hr
  refine ⟨fun a => hrun.balance_add_out_le hown a, fun a => hrun.balance_eq hown,
    fun a sp hne => ?_, fun S => hrun.sum_le hown⟩
  have hspent := hrun.spent_add_allowance_le replaced_not_mem hne
  have hzero : (holdings cfg (origin h s)).allowance a sp = 0 := by
    simp only [holdings, allowance, hr.genesis_origin.1 a sp, Option.getD_none, Uint.val_zero]
  rw [hzero, Nat.zero_add] at hspent
  exact hspent

theorem run_exampleCalls : (machine exampleConfig).Run (fun _ _ op => ∀ l, op ≠ .elsewhere l)
    exampleRun.1 exampleRun.2 := by
  refine Machine.run_replay exampleOps (.start ⟨fun _ _ => rfl, fun _ => rfl⟩) ?_
  refine ⟨?_, ?_, ?_, ?_, ?_, trivial⟩ <;> exact fun l h => by cases h

theorem balances_by_consent_permit :
    (exampleRun.2.ledger.free Mock.charlie).val = 50 ∧
      (exampleRun.2.ledger.free Mock.alith).val + 50 ≤ 1000 ∧
      20 + 30 + allowance exampleRun.2 Mock.alith Mock.bob ≤ 50 + 100 := by
  obtain ⟨hout, hkept, hspent, -⟩ := balances_by_consent run_exampleCalls
  refine ⟨hkept Mock.charlie fun caller dest n hmem => ?_, hout Mock.alith,
    hspent Mock.alith Mock.bob (by decide)⟩
  have hacts : exampleRun.1.filterMap (actOf exampleConfig) =
      [.move Mock.bob Mock.alith Mock.charlie 20, .approve Mock.alith Mock.bob 50,
        .move Mock.bob Mock.alith Mock.charlie 30, .approve Mock.alith Mock.bob 100] := rfl
  simp only [hacts, List.mem_cons, Holdings.Act.move.injEq, reduceCtorEq, List.not_mem_nil,
    or_false, false_or] at hmem
  rcases hmem with ⟨-, hs, -⟩ | ⟨-, hs, -⟩ <;> exact absurd hs (by decide)

end Runs

end Erc20Balances

end Moonkit
