import Mathlib.Algebra.GroupWithZero.Nat
import Moonkit.Erc20Balances
import Moonkit.PrecompilesMock

/-!
# Allowances of the balances ERC20 precompile

What a call that answers has written is one case of `Wrote` for each way through the source
(`call_cases`); a call that does not answer has written nothing. An approval sets an allowance, and
only a transfer by the spender takes from it, so allowance and spending since the last approval add
up to what was approved (`allowances`).
-/

namespace Moonkit

namespace Erc20Balances

open Precompile Machine

variable {D A L M : Type} {max : ℕ} [DecidableEq A] {cfg : Config D A L M max}

section Calls

variable (cfg) in
/-- What a call with the context `ctx` that answered wrote in the state `s`. -/
inductive Wrote (ctx : Context) (s : State D A L max) : Request → State D A L max → Prop
  | approve {spender : H160} {value : U256} (logs : List (Log D)) :
      Wrote ctx s (.approve spender value) { s with
        approves := insertApproval s.approves (cfg.intoAccountId ctx.caller)
          (cfg.intoAccountId spender) (value.saturatingInto max)
        logs := logs }
  | transfer {to_ : H160} {value : U256} {amount : Uint max} {ledger : L} (logs : List (Log D)) :
      amount.val = value.val →
      cfg.currency.transferAllowDeath s.ledger (cfg.intoAccountId ctx.caller)
        (cfg.intoAccountId to_) amount = .ok ledger →
      Wrote ctx s (.transfer to_ value) { s with ledger := ledger, logs := logs }
  | transferByOwner {from_ to_ : H160} {value : U256} {amount : Uint max} {ledger : L}
      (logs : List (Log D)) : cfg.intoAccountId ctx.caller = cfg.intoAccountId from_ →
      amount.val = value.val →
      cfg.currency.transferAllowDeath s.ledger (cfg.intoAccountId from_)
        (cfg.intoAccountId to_) amount = .ok ledger →
      Wrote ctx s (.transferFrom from_ to_ value) { s with ledger := ledger, logs := logs }
  | transferBySpender {from_ to_ : H160} {value : U256} {amount allowed rest : Uint max}
      {ledger : L} (logs : List (Log D)) : cfg.intoAccountId ctx.caller ≠ cfg.intoAccountId from_ →
      amount.val = value.val →
      s.approves (cfg.intoAccountId from_) (cfg.intoAccountId ctx.caller) = some allowed →
      allowed.checkedSub amount = some rest →
      cfg.currency.transferAllowDeath s.ledger (cfg.intoAccountId from_)
        (cfg.intoAccountId to_) amount = .ok ledger →
      Wrote ctx s (.transferFrom from_ to_ value) { s with
        approves := insertApproval s.approves (cfg.intoAccountId from_)
          (cfg.intoAccountId ctx.caller) rest
        ledger := ledger
        logs := logs }
  | deposit {ledger : L} (logs : List (Log D)) :
      Wrote ctx s .deposit { s with ledger := ledger, logs := logs }
  | withdraw {value : U256} (logs : List (Log D)) :
      Wrote ctx s (.withdraw value) { s with logs := logs }
  | permit {owner spender : H160} {value deadline next : U256} {sig : Signature}
      (logs : List (Log D)) : seconds s.now ≤ deadline →
      cfg.crypto.signer sig (generatePermit cfg
        ⟨ctx.address, owner, spender, value, s.nonces owner, deadline⟩) = some owner →
      (s.nonces owner).checkedAdd U256.one = some next →
      Wrote ctx s (.permit owner spender value deadline sig) { s with
        nonces := Function.update s.nonces owner next
        approves := insertApproval s.approves (cfg.intoAccountId owner)
          (cfg.intoAccountId spender) (value.saturatingInto max)
        logs := logs }

variable {ctx : Context} {s : State D A L max} {m : M} {p' : State D A L max × M}

omit [DecidableEq A] in
theorem record_eq_ok {log : Log D} {u : Unit} (h : record cfg log (s, m) = (.ok u, p')) :
    p'.1 = { s with logs := s.logs ++ [log] } := by
  obtain ⟨m₁, -, h⟩ := meter_bind_eq_ok.1 h
  simp only [write, Prod.mk.injEq] at h
  rw [← h.2]

omit [DecidableEq A] in
theorem dispatchTransfer_eq_ok {a b : A} {n : Uint max} {u : Unit}
    (h : dispatchTransfer cfg a b n (s, m) = (.ok u, p')) :
    ∃ l, cfg.currency.transferAllowDeath s.ledger a b n = .ok l ∧
      p'.1 = { s with ledger := l } := by
  have hx := tryDispatch_eq_ok h
  obtain ⟨l, hl, hp'⟩ := exceptMap_eq_ok.1 hx
  exact ⟨l, hl, hp'.symm⟩

theorem approve_eq_ok {spender : H160} {value : U256} {b : Bool}
    (h : approve cfg ctx spender value (s, m) = (.ok b, p')) :
    Wrote cfg ctx s (.approve spender value) p'.1 := by
  unfold approve at h
  obtain ⟨m₁, -, h⟩ := meter_bind_eq_ok.1 h
  obtain ⟨m₂, -, h⟩ := meter_bind_eq_ok.1 h
  rw [write_bind] at h
  obtain ⟨u, p₁, hlog, h⟩ := Call.bind_eq_ok.1 h
  obtain ⟨-, rfl⟩ := Prod.mk.inj h
  rw [record_eq_ok hlog]
  exact .approve _

theorem transfer_eq_ok {to_ : H160} {value : U256} {b : Bool}
    (h : transfer cfg ctx to_ value (s, m) = (.ok b, p')) :
    Wrote cfg ctx s (.transfer to_ value) p'.1 := by
  unfold transfer at h
  obtain ⟨m₁, -, h⟩ := meter_bind_eq_ok.1 h
  obtain ⟨amount, hvalue, h⟩ := Call.okOr_bind_eq_ok.1 h
  obtain ⟨u, p₂, hmove, h⟩ := Call.bind_eq_ok.1 h
  obtain ⟨l, hl, hp₂⟩ := dispatchTransfer_eq_ok hmove
  obtain ⟨v, p₃, hlog, h⟩ := Call.bind_eq_ok.1 h
  obtain ⟨-, rfl⟩ := Prod.mk.inj h
  rw [record_eq_ok hlog, hp₂]
  exact .transfer _ (U256.tryInto_eq_some.1 hvalue) hl

theorem spendAllowance_eq_ok {o sp : A} {n : Uint max} {u : Unit}
    (h : spendAllowance o sp n (s, m) = (.ok u, p')) :
    ∃ allowed rest, s.approves o sp = some allowed ∧ allowed.checkedSub n = some rest ∧
      p'.1 = { s with approves := insertApproval s.approves o sp rest } := by
  unfold spendAllowance at h
  rw [storage_bind] at h
  obtain ⟨allowed, hallowed, h⟩ := Call.okOr_bind_eq_ok.1 h
  obtain ⟨rest, hrest, h⟩ := Call.okOr_bind_eq_ok.1 h
  simp only [write, Prod.mk.injEq] at h
  exact ⟨allowed, rest, hallowed, hrest, by rw [← h.2]⟩

theorem transferFrom_eq_ok {from_ to_ : H160} {value : U256} {b : Bool}
    (h : transferFrom cfg ctx from_ to_ value (s, m) = (.ok b, p')) :
    Wrote cfg ctx s (.transferFrom from_ to_ value) p'.1 := by
  unfold transferFrom at h
  obtain ⟨m₁, -, h⟩ := meter_bind_eq_ok.1 h
  obtain ⟨m₂, -, h⟩ := meter_bind_eq_ok.1 h
  obtain ⟨m₃, -, h⟩ := meter_bind_eq_ok.1 h
  obtain ⟨amount, hvalue, h⟩ := Call.okOr_bind_eq_ok.1 h
  obtain ⟨u, p₂, hspend, h⟩ := Call.bind_eq_ok.1 h
  obtain ⟨v, p₃, hmove, h⟩ := Call.bind_eq_ok.1 h
  obtain ⟨l, hl, hp₃⟩ := dispatchTransfer_eq_ok hmove
  obtain ⟨w, p₄, hlog, h⟩ := Call.bind_eq_ok.1 h
  obtain ⟨-, rfl⟩ := Prod.mk.inj h
  rw [record_eq_ok hlog, hp₃]
  split_ifs at hspend with howner
  · obtain ⟨-, rfl⟩ := Prod.mk.inj hspend
    exact .transferByOwner _ howner (U256.tryInto_eq_some.1 hvalue) hl
  · obtain ⟨allowed, rest, hallowed, hrest, hp₂⟩ := spendAllowance_eq_ok hspend
    rw [hp₂] at hl ⊢
    exact .transferBySpender _ howner (U256.tryInto_eq_some.1 hvalue) hallowed hrest hl

theorem deposit_eq_ok {u : Unit} (h : deposit cfg ctx (s, m) = (.ok u, p')) :
    Wrote cfg ctx s .deposit p'.1 := by
  unfold deposit at h
  obtain ⟨-, h⟩ := Call.ensure_bind_eq_ok.1 h
  obtain ⟨amount, -, h⟩ := Call.okOr_bind_eq_ok.1 h
  obtain ⟨-, h⟩ := Call.ensure_bind_eq_ok.1 h
  obtain ⟨m₁, -, h⟩ := meter_bind_eq_ok.1 h
  obtain ⟨w, p₄, hmove, h⟩ := Call.bind_eq_ok.1 h
  obtain ⟨l, -, hp₄⟩ := dispatchTransfer_eq_ok hmove
  rw [record_eq_ok h, hp₄]
  exact .deposit _

theorem withdraw_eq_ok {value : U256} {u : Unit}
    (h : withdraw cfg ctx value (s, m) = (.ok u, p')) : Wrote cfg ctx s (.withdraw value) p'.1 := by
  unfold withdraw at h
  obtain ⟨-, h⟩ := Call.ensure_bind_eq_ok.1 h
  obtain ⟨m₁, -, h⟩ := meter_bind_eq_ok.1 h
  rw [storage_bind] at h
  obtain ⟨-, h⟩ := Call.ensure_bind_eq_ok.1 h
  rw [record_eq_ok h]
  exact .withdraw _

theorem permit_eq_ok {owner spender : H160} {value deadline : U256} {sig : Signature} {u : Unit}
    (h : permit cfg ctx owner spender value deadline sig (s, m) = (.ok u, p')) :
    Wrote cfg ctx s (.permit owner spender value deadline sig) p'.1 := by
  unfold permit at h
  obtain ⟨m₁, -, h⟩ := meter_bind_eq_ok.1 h
  rw [storage_bind] at h
  obtain ⟨hdeadline, h⟩ := Call.ensure_bind_eq_ok.1 h
  obtain ⟨hsigner, h⟩ := ensureSigned_bind_eq_ok h
  obtain ⟨next, hnext, h⟩ := Call.expect_bind_eq_ok.1 h
  rw [write_bind, write_bind] at h
  rw [record_eq_ok h]
  exact .permit _ hdeadline hsigner hnext

/-- A call answers, and has written what its kind of call writes, or it has written nothing. -/
theorem call_cases (cfg : Config D A L M max) (ctx : Context) (gas : M) (r : Request)
    (s : State D A L max) :
    (call cfg ctx gas r s).1 = .ok () ∧ Wrote cfg ctx s r (call cfg ctx gas r s).2 ∨
      (call cfg ctx gas r s).1 ≠ .ok () ∧ (call cfg ctx gas r s).2 = s := by
  rcases Call.transactional_cases (run cfg ctx r) (s, gas) with ⟨u, p', hrun, hcall⟩ | ⟨hrun, hcall⟩
  · refine .inl ⟨by simp [call, hcall], ?_⟩
    simp only [call, hcall]
    cases r with
    | approve spender value =>
      obtain ⟨b, hb⟩ := Call.exists_of_drop hrun
      exact approve_eq_ok hb
    | transfer to_ value =>
      obtain ⟨b, hb⟩ := Call.exists_of_drop hrun
      exact transfer_eq_ok hb
    | transferFrom from_ to_ value =>
      obtain ⟨b, hb⟩ := Call.exists_of_drop hrun
      exact transferFrom_eq_ok hb
    | deposit => exact deposit_eq_ok hrun
    | withdraw value => exact withdraw_eq_ok hrun
    | permit owner spender value deadline sig => exact permit_eq_ok hrun
  · refine .inr ⟨fun hok => ?_, by simp [call, hcall]⟩
    obtain ⟨p', hp'⟩ : ∃ p', (run cfg ctx r).transactional (s, gas) = (.ok (), p') :=
      ⟨_, Prod.ext hok rfl⟩
    exact hrun () p' (Call.transactional_eq_ok.1 hp')

end Calls

section Histories

/-- What `owner` has allowed `spender`, as the precompile shows it. -/
def allowance (s : State D A L max) (owner spender : A) : ℕ :=
  ((s.approves owner spender).getD 0).val

abbrev Ev (D A L M : Type) (max : ℕ) :=
  Event (State D A L max) (Op L M) (Outcome PrecompileFailure Unit)

variable (cfg) in
/-- The amount that a call allows `sp` to spend of `o`, if it is an approval for them. -/
def grants (o sp : A) (ctx : Context) : Request → Option ℕ
  | .approve spender value =>
    if cfg.intoAccountId ctx.caller = o ∧ cfg.intoAccountId spender = sp
    then some (min value.val max) else none
  | .permit owner spender value _ _ =>
    if cfg.intoAccountId owner = o ∧ cfg.intoAccountId spender = sp
    then some (min value.val max) else none
  | _ => none

variable (cfg) in
/-- The amount that a call by `sp` moves out of `o` by `transferFrom`. -/
def moves (o sp : A) (ctx : Context) : Request → ℕ
  | .transferFrom from_ _ value =>
    if cfg.intoAccountId from_ = o ∧ cfg.intoAccountId ctx.caller = sp then value.val else 0
  | _ => 0

variable (cfg) in
/-- The amount approved by an event that went through. -/
def approved (o sp : A) (e : Ev D A L M max) : Option ℕ :=
  match e.op with
  | .call ctx _ r => if e.answer = .ok () then grants cfg o sp ctx r else none
  | _ => none

variable (cfg) in
/-- The amount moved by an event that went through. -/
def moved (o sp : A) (e : Ev D A L M max) : ℕ :=
  match e.op with
  | .call ctx _ r => if e.answer = .ok () then moves cfg o sp ctx r else 0
  | _ => 0

variable (cfg) in
def lastApproval (o sp : A) (h : List (Ev D A L M max)) : Option ℕ :=
  h.findSome? (approved cfg o sp)

variable (cfg) in
/-- The total moved out of `o` by `sp` since the last approval. -/
def movedSince (o sp : A) (h : List (Ev D A L M max)) : ℕ :=
  ((h.takeWhile fun e => approved cfg o sp e = none).map (moved cfg o sp)).sum

variable (cfg) in
/-- The owner and the spender a call is about. -/
def named (ctx : Context) : Request → Option (A × A)
  | .approve spender _ => some (cfg.intoAccountId ctx.caller, cfg.intoAccountId spender)
  | .transferFrom from_ _ _ => some (cfg.intoAccountId from_, cfg.intoAccountId ctx.caller)
  | .permit owner spender _ _ _ => some (cfg.intoAccountId owner, cfg.intoAccountId spender)
  | _ => none

variable (cfg) in
/-- The event is an approval by `o` itself, or a permit that `o` signed. -/
def ByOwner (o sp : A) (e : Ev D A L M max) : Prop :=
  ∃ ctx gas,
    (∃ spender value, e.op = .call ctx gas (.approve spender value) ∧
      cfg.intoAccountId ctx.caller = o ∧ cfg.intoAccountId spender = sp) ∨
    ∃ owner spender value deadline sig,
      e.op = .call ctx gas (.permit owner spender value deadline sig) ∧
      cfg.intoAccountId owner = o ∧ cfg.intoAccountId spender = sp ∧
      cfg.crypto.signer sig (generatePermit cfg
        ⟨ctx.address, owner, spender, value, e.before.nonces owner, deadline⟩) = some owner

namespace Wrote

variable {o sp : A} {ctx : Context} {s s' : State D A L max} {r : Request}

theorem approves_of_grants (hw : Wrote cfg ctx s r s') {v : ℕ}
    (hg : grants cfg o sp ctx r = some v) : ∃ a, s'.approves o sp = some a ∧ a.val = v := by
  cases hw with
  | approve logs =>
    simp only [grants, Option.ite_none_right_eq_some, Option.some.injEq] at hg
    obtain ⟨⟨rfl, rfl⟩, rfl⟩ := hg
    exact ⟨_, insertApproval_self, U256.saturatingInto_val max _⟩
  | permit logs =>
    simp only [grants, Option.ite_none_right_eq_some, Option.some.injEq] at hg
    obtain ⟨⟨rfl, rfl⟩, rfl⟩ := hg
    exact ⟨_, insertApproval_self, U256.saturatingInto_val max _⟩
  | _ => simp [grants] at hg

/-- A call that does not name a pair leaves its approval as it is. -/
theorem approves_of_not_named (hw : Wrote cfg ctx s r s')
    (hn : named cfg ctx r ≠ some (o, sp)) : s'.approves o sp = s.approves o sp := by
  cases hw with
  | approve logs => exact insertApproval_of_ne fun h => hn (by rw [named, h])
  | permit logs => exact insertApproval_of_ne fun h => hn (by rw [named, h])
  | transferBySpender logs => exact insertApproval_of_ne fun h => hn (by rw [named, h])
  | _ => rfl

/-- A call that is no approval for them takes what it moves off the allowance, the calls of the
owner apart. -/
theorem approves_of_not_grants (hw : Wrote cfg ctx s r s') (hg : grants cfg o sp ctx r = none) :
    (s'.approves o sp = s.approves o sp ∧ (o ≠ sp → moves cfg o sp ctx r = 0)) ∨
      ∃ allowed rest, s.approves o sp = some allowed ∧ s'.approves o sp = some rest ∧
        rest.val + moves cfg o sp ctx r = allowed.val := by
  by_cases hn : named cfg ctx r = some (o, sp)
  · cases hw with
    | approve logs => simp_all [grants, named]
    | permit logs => simp_all [grants, named]
    | transferByOwner logs howner =>
      simp only [named, Option.some.injEq, Prod.mk.injEq] at hn
      exact .inl ⟨rfl, fun hne => absurd (hn.1.symm.trans (howner.symm.trans hn.2)) hne⟩
    | @transferBySpender from_ to_ value amount allowed rest ledger logs _ hvalue hallowed hrest =>
      simp only [named, Option.some.injEq, Prod.mk.injEq] at hn
      obtain ⟨rfl, rfl⟩ := hn
      refine .inr ⟨allowed, rest, hallowed, insertApproval_self, ?_⟩
      rw [moves, if_pos ⟨rfl, rfl⟩, ← hvalue]
      exact Uint.checkedSub_eq_some.1 hrest
    | _ => simp [named] at hn
  · refine .inl ⟨hw.approves_of_not_named hn, fun _ => ?_⟩
    cases r with
    | transferFrom from_ to_ value =>
      refine if_neg fun h => hn ?_
      rw [named, h.1, h.2]
    | _ => rfl

theorem allowance_le (hw : Wrote cfg ctx s r s') (hg : grants cfg o sp ctx r = none) :
    allowance s' o sp ≤ allowance s o sp := by
  unfold allowance
  rcases hw.approves_of_not_grants hg with ⟨hsame, -⟩ | ⟨allowed, rest, hallowed, hrest, hsum⟩
  · rw [hsame]
  · rw [hallowed, hrest, Option.getD_some, Option.getD_some]
    omega

theorem allowed {from_ to_ : H160} {value : U256}
    (hw : Wrote cfg ctx s (.transferFrom from_ to_ value) s')
    (hne : cfg.intoAccountId from_ ≠ cfg.intoAccountId ctx.caller) :
    s.approves (cfg.intoAccountId from_) (cfg.intoAccountId ctx.caller) ≠ none := by
  cases hw with
  | transferByOwner logs howner => exact absurd howner.symm hne
  | transferBySpender logs _ _ hallowed => simp [hallowed]

theorem signed {owner spender : H160} {value deadline : U256} {sig : Signature}
    (hw : Wrote cfg ctx s (.permit owner spender value deadline sig) s') :
    cfg.crypto.signer sig (generatePermit cfg
      ⟨ctx.address, owner, spender, value, s.nonces owner, deadline⟩) = some owner := by
  cases hw with
  | permit logs _ hsigned => exact hsigned

/-- A transfer to another account credits it with the amount, and takes at least as much. -/
theorem balances {from_ to_ : H160} {value : U256}
    (hw : Wrote cfg ctx s (.transferFrom from_ to_ value) s')
    (hne : cfg.intoAccountId from_ ≠ cfg.intoAccountId to_) :
    (cfg.currency.freeBalance s'.ledger (cfg.intoAccountId to_)).val
        = (cfg.currency.freeBalance s.ledger (cfg.intoAccountId to_)).val + value.val ∧
      (cfg.currency.freeBalance s'.ledger (cfg.intoAccountId from_)).val + value.val
        ≤ (cfg.currency.freeBalance s.ledger (cfg.intoAccountId from_)).val := by
  cases hw with
  | transferByOwner logs _ hvalue hmove =>
    rw [← hvalue]
    exact ⟨cfg.currency.transfer_dest hne hmove, cfg.currency.transfer_source hne hmove⟩
  | transferBySpender logs _ hvalue _ _ hmove =>
    rw [← hvalue]
    exact ⟨cfg.currency.transfer_dest hne hmove, cfg.currency.transfer_source hne hmove⟩

end Wrote

/-- An operation is a call that answers, or it leaves approvals and nonces as they are. -/
theorem exec_cases (cfg : Config D A L M max) (s : State D A L max) (op : Op L M) :
    (∃ ctx gas r, op = .call ctx gas r ∧ (exec cfg s op).1 = .ok () ∧
      Wrote cfg ctx s r (exec cfg s op).2) ∨
    ((∀ ctx gas r, op = .call ctx gas r → (exec cfg s op).1 ≠ .ok ()) ∧
      (exec cfg s op).2.approves = s.approves ∧ (exec cfg s op).2.nonces = s.nonces) := by
  cases op with
  | setTime now => exact .inr ⟨by simp, rfl, rfl⟩
  | elsewhere ledger => exact .inr ⟨by simp, rfl, rfl⟩
  | call ctx gas r =>
    rcases call_cases cfg ctx gas r s with ⟨hok, hw⟩ | ⟨herr, hs⟩
    · exact .inl ⟨ctx, gas, r, rfl, hok, hw⟩
    · exact .inr ⟨fun _ _ _ _ => herr, by rw [exec, hs], by rw [exec, hs]⟩

variable {o sp : A} {s : State D A L max} {h : List (Ev D A L M max)}

/-- What is left of the last approval and what was moved since add up to it. -/
def Accounted (cfg : Config D A L M max) (o sp : A) (h : List (Ev D A L M max))
    (s : State D A L max) : Prop :=
  match lastApproval cfg o sp h with
  | none => s.approves o sp = none
  | some v => ∃ a, s.approves o sp = some a ∧ a.val + movedSince cfg o sp h = v

theorem lastApproval_of_approved {e : Ev D A L M max} {v : ℕ} (he : approved cfg o sp e = some v) :
    lastApproval cfg o sp (e :: h) = some v ∧ movedSince cfg o sp (e :: h) = 0 := by
  simp [lastApproval, movedSince, he]

theorem lastApproval_of_not_approved {e : Ev D A L M max} (he : approved cfg o sp e = none) :
    lastApproval cfg o sp (e :: h) = lastApproval cfg o sp h ∧
      movedSince cfg o sp (e :: h) = moved cfg o sp e + movedSince cfg o sp h := by
  simp [lastApproval, movedSince, he]

/-- An event without an approval that leaves the allowance and moves nothing, or takes off it what
it moves. -/
theorem Accounted.cons (hacc : Accounted cfg o sp h s) {e : Ev D A L M max} {s' : State D A L max}
    (he : approved cfg o sp e = none)
    (hs : (s'.approves o sp = s.approves o sp ∧ moved cfg o sp e = 0) ∨
      ∃ allowed rest, s.approves o sp = some allowed ∧ s'.approves o sp = some rest ∧
        rest.val + moved cfg o sp e = allowed.val) : Accounted cfg o sp (e :: h) s' := by
  unfold Accounted at hacc ⊢
  rw [(lastApproval_of_not_approved he).1]
  rcases hl : lastApproval cfg o sp h with _ | v <;> simp only [hl] at hacc ⊢
  · rcases hs with ⟨hsame, -⟩ | ⟨allowed, rest, hallowed, -, -⟩
    · rw [hsame, hacc]
    · rw [hacc] at hallowed
      simp at hallowed
  · obtain ⟨a, ha, hsum⟩ := hacc
    rw [(lastApproval_of_not_approved he).2]
    rcases hs with ⟨hsame, hzero⟩ | ⟨allowed, rest, hallowed, hrest, htake⟩
    · exact ⟨a, by rw [hsame, ha], by omega⟩
    · obtain rfl := Option.some.inj (ha.symm.trans hallowed)
      exact ⟨rest, hrest, by omega⟩

theorem accounted_of_run (hne : o ≠ sp) (hr : (machine cfg).Run (fun _ _ _ => True) h s) :
    Accounted cfg o sp h s := by
  refine hr.invariant (Accounted cfg o sp) ?_ ?_
  · rintro s ⟨hnone, -⟩
    exact hnone o sp
  · intro h s op _ ih _
    rcases exec_cases cfg s op with ⟨ctx, gas, r, rfl, hok, hw⟩ | ⟨herr, hsame, -⟩
    · have hgrants : approved cfg o sp ((machine cfg).event s (.call ctx gas r))
          = grants cfg o sp ctx r := if_pos hok
      have hmoves : moved cfg o sp ((machine cfg).event s (.call ctx gas r))
          = moves cfg o sp ctx r := if_pos hok
      rcases hg : grants cfg o sp ctx r with _ | v
      · refine ih.cons (hgrants.trans hg) ?_
        rw [hmoves]
        exact (hw.approves_of_not_grants hg).imp (And.imp_right (· hne)) id
      · have hlast := lastApproval_of_approved (h := h) (hgrants.trans hg)
        obtain ⟨a, ha, rfl⟩ := hw.approves_of_grants hg
        unfold Accounted
        rw [hlast.1]
        exact ⟨a, ha, by rw [hlast.2, Nat.add_zero]⟩
    · have hnot : approved cfg o sp ((machine cfg).event s op) = none ∧
          moved cfg o sp ((machine cfg).event s op) = 0 := by
        cases op with
        | call ctx gas r =>
          have hfail : (exec cfg s (.call ctx gas r)).1 ≠ .ok () := herr ctx gas r rfl
          exact ⟨if_neg hfail, if_neg hfail⟩
        | _ => exact ⟨rfl, rfl⟩
      exact ih.cons hnot.1 (.inl ⟨congrFun (congrFun hsame o) sp, hnot.2⟩)

theorem transferFrom_fails {ctx : Context} {gas : M} {from_ to_ : H160} {value : U256}
    (hne : cfg.intoAccountId from_ ≠ cfg.intoAccountId ctx.caller)
    (hnone : s.approves (cfg.intoAccountId from_) (cfg.intoAccountId ctx.caller) = none) :
    (exec cfg s (.call ctx gas (.transferFrom from_ to_ value))).1 ≠ .ok () := by
  intro hok
  rcases call_cases cfg ctx gas (.transferFrom from_ to_ value) s with ⟨-, hw⟩ | ⟨herr, -⟩
  · exact hw.allowed hne hnone
  · exact herr hok

/-- Only an approval of the owner raises an allowance. -/
theorem byOwner_of_lt {op : Op L M}
    (hlt : allowance s o sp < allowance (exec cfg s op).2 o sp) :
    ByOwner cfg o sp ((machine cfg).event s op) := by
  rcases exec_cases cfg s op with ⟨ctx, gas, r, rfl, hok, hw⟩ | ⟨-, hsame, -⟩
  · rcases hg : grants cfg o sp ctx r with _ | v
    · exact absurd (hw.allowance_le hg) (Nat.not_le_of_lt hlt)
    · refine ⟨ctx, gas, ?_⟩
      cases r with
      | approve spender value =>
        simp only [grants, Option.ite_none_right_eq_some] at hg
        exact .inl ⟨spender, value, rfl, hg.1⟩
      | permit owner spender value deadline sig =>
        simp only [grants, Option.ite_none_right_eq_some] at hg
        exact .inr ⟨owner, spender, value, deadline, sig, rfl, hg.1.1, hg.1.2, hw.signed⟩
      | _ => simp [grants] at hg
  · rw [allowance, allowance, hsame] at hlt
    exact absurd hlt (lt_irrefl _)

end Histories

section Owner

/-- The same state with other approvals. -/
def withApproves (f : A → A → Option (Uint max)) (p : State D A L max × M) :
    State D A L max × M :=
  ({ p.1 with approves := f }, p.2)

variable {f : A → A → Option (Uint max)}

omit [DecidableEq A] in
theorem ignores_meter (g : M → Except ExitError M) :
    Call.Ignores (withApproves f)
      (meter g : Call (State D A L max × M) PrecompileFailure Unit) := by
  intro p
  simp only [meter, withApproves]
  rcases g p.2 with e | m <;> rfl

omit [DecidableEq A] in
theorem ignores_record (log : Log D) : Call.Ignores (withApproves f) (record cfg log) :=
  (ignores_meter _).bind fun _ _ => rfl

omit [DecidableEq A] in
theorem ignores_dispatchTransfer (a b : A) (n : Uint max) :
    Call.Ignores (withApproves f) (dispatchTransfer cfg a b n) := by
  refine (ignores_meter _).bind fun _ p => ?_
  simp only [storage_bind, withApproves]
  rcases cfg.currency.transferAllowDeath p.1.ledger a b n with e | l
  · rfl
  · exact ignores_meter cfg.metering.refundDispatch ({ p.1 with ledger := l }, p.2)

/-- A transfer by the owner goes as it goes, whatever the approvals. -/
theorem ignores_transferFrom {ctx : Context} {from_ : H160} (to_ : H160) (value : U256)
    (howner : cfg.intoAccountId ctx.caller = cfg.intoAccountId from_) :
    Call.Ignores (withApproves f) (transferFrom cfg ctx from_ to_ value) := by
  unfold transferFrom
  refine (ignores_meter _).bind fun _ => (ignores_meter _).bind fun _ =>
    (ignores_meter _).bind fun _ => (Call.Ignores.okOr _ _).bind fun amount => ?_
  rw [if_pos howner]
  exact (Call.Ignores.pure _).bind fun _ => (ignores_dispatchTransfer _ _ _).bind fun _ =>
    (ignores_record _).bind fun _ => Call.Ignores.pure _

theorem exec_transferFrom_owner {ctx : Context} {gas : M} {from_ to_ : H160} {value : U256}
    (howner : cfg.intoAccountId ctx.caller = cfg.intoAccountId from_) (s : State D A L max) :
    exec cfg { s with approves := f } (.call ctx gas (.transferFrom from_ to_ value))
      = ((exec cfg s (.call ctx gas (.transferFrom from_ to_ value))).1,
        { (exec cfg s (.call ctx gas (.transferFrom from_ to_ value))).2 with approves := f }) := by
  have hrun : Call.Ignores (withApproves f) (run cfg ctx (.transferFrom from_ to_ value)) :=
    (ignores_transferFrom to_ value howner).bind fun _ => Call.Ignores.pure _
  have hcall := hrun.transactional (s, gas)
  simp only [exec, call]
  rw [show ({ s with approves := f }, gas) = withApproves f (s, gas) from rfl, hcall]
  rfl

end Owner

/-- Along every run, allowance and spending since the last approval add up to what was approved, and
without an approval nothing is spent; only the owner raises an allowance; a transfer by the owner
neither needs an approval nor changes one; no call changes an approval it does not name; and what a
`transferFrom` spends is what it moves. -/
theorem allowances {h : List (Ev D A L M max)} {s : State D A L max}
    (hr : (machine cfg).Run (fun _ _ _ => True) h s) :
    (∀ o sp v, o ≠ sp → lastApproval cfg o sp h = some v →
      allowance s o sp + movedSince cfg o sp h = v) ∧
    (∀ ctx gas from_ to_ value, cfg.intoAccountId from_ ≠ cfg.intoAccountId ctx.caller →
      lastApproval cfg (cfg.intoAccountId from_) (cfg.intoAccountId ctx.caller) h = none →
      (exec cfg s (.call ctx gas (.transferFrom from_ to_ value))).1 ≠ .ok ()) ∧
    (∀ e ∈ h, ∀ o sp, allowance e.before o sp < allowance e.after o sp → ByOwner cfg o sp e) ∧
    (∀ e ∈ h, ∀ ctx gas from_ to_ value, e.op = .call ctx gas (.transferFrom from_ to_ value) →
      cfg.intoAccountId ctx.caller = cfg.intoAccountId from_ →
      e.after.approves = e.before.approves ∧
        ∀ f, exec cfg { e.before with approves := f } e.op
          = (e.answer, { e.after with approves := f })) ∧
    (∀ e ∈ h, ∀ ctx gas r, e.op = .call ctx gas r → ∀ o sp, named cfg ctx r ≠ some (o, sp) →
      e.after.approves o sp = e.before.approves o sp) ∧
    (∀ e ∈ h, ∀ ctx gas from_ to_ value, e.op = .call ctx gas (.transferFrom from_ to_ value) →
      e.answer = .ok () → cfg.intoAccountId from_ ≠ cfg.intoAccountId to_ →
      (cfg.currency.freeBalance e.after.ledger (cfg.intoAccountId to_)).val
          = (cfg.currency.freeBalance e.before.ledger (cfg.intoAccountId to_)).val + value.val ∧
        (cfg.currency.freeBalance e.after.ledger (cfg.intoAccountId from_)).val + value.val
          ≤ (cfg.currency.freeBalance e.before.ledger (cfg.intoAccountId from_)).val) := by
  have hevent : ∀ e ∈ h, e = (machine cfg).event e.before e.op := fun e he =>
    (hr.mem_event he).elim fun _ hh => hh.2.2
  refine ⟨?_, ?_, ?_, ?_, ?_, ?_⟩
  · intro o sp v hne hlast
    have hacc := accounted_of_run hne hr
    simp only [Accounted, hlast] at hacc
    obtain ⟨a, ha, hsum⟩ := hacc
    rw [allowance, ha, Option.getD_some, hsum]
  · intro ctx gas from_ to_ value hne hlast
    have hacc := accounted_of_run hne hr
    simp only [Accounted, hlast] at hacc
    exact transferFrom_fails hne hacc
  · intro e he o sp hlt
    rw [hevent e he] at hlt ⊢
    exact byOwner_of_lt hlt
  · intro e he ctx gas from_ to_ value hop howner
    have hexec (f : A → A → Option (Uint max)) :
        exec cfg { e.before with approves := f } e.op
          = (e.answer, { e.after with approves := f }) := by
      rw [hevent e he]
      simp only [event, machine, hop]
      exact exec_transferFrom_owner howner e.before
    refine ⟨?_, hexec⟩
    have hsame := congrArg (fun x => x.2.approves) (hexec e.before.approves)
    rw [hevent e he]
    exact hsame
  · intro e he ctx gas r hop o sp hn
    rw [hevent e he]
    rcases exec_cases cfg e.before e.op with ⟨ctx', gas', r', hop', -, hw⟩ | ⟨-, hsame, -⟩
    · obtain ⟨rfl, rfl, rfl⟩ := Op.call.inj (hop'.symm.trans hop)
      exact hw.approves_of_not_named hn
    · exact congrFun (congrFun hsame o) sp
  · intro e he ctx gas from_ to_ value hop hok hne
    rw [hevent e he] at hok ⊢
    rcases exec_cases cfg e.before e.op with ⟨ctx', gas', r', hop', -, hw⟩ | ⟨herr, -⟩
    · obtain ⟨rfl, rfl, rfl⟩ := Op.call.inj (hop'.symm.trans hop)
      exact hw.balances hne
    · exact absurd hok (herr ctx gas _ hop)

section Example

abbrev ExampleLedger := Issued H160 (2 ^ 128 - 1)

def exampleToken : Token H160 ExampleLedger (2 ^ 128 - 1) where
  name := "Mock token".toUTF8.toList
  isNativeCurrency := true
  storageGrowth := 0
  currency := ExpendableCurrency.reaping H160 (2 ^ 128 - 1) 0
  usableBalance := Issued.free
  debug _ := ""

def exampleConfig : Config FreeDigest H160 ExampleLedger Unit (2 ^ 128 - 1) :=
  ⟨Mock.runtime, exampleToken⟩

def exampleGenesis : State FreeDigest H160 ExampleLedger (2 ^ 128 - 1) where
  approves _ _ := none
  nonces _ := 0
  ledger := ⟨.lit 1000, fun a => if a = Mock.alith then .lit 1000 else 0⟩
  now := 0
  logs := []

/-- `alith` approves 100 for `bob`, who spends 30; a permit then sets 50, of which `bob` spends 20
and cannot spend 40 more. -/
def exampleOps : List (Op ExampleLedger Unit) :=
  let alith := Mock.context Mock.alith Mock.precompile
  let bob := Mock.context Mock.bob Mock.precompile
  [.call alith () (.approve Mock.bob (.lit 100)),
    .call bob () (.transferFrom Mock.alith Mock.charlie (.lit 30)),
    .call bob () (.permit Mock.alith Mock.bob (.lit 50) 0 (Mock.signature Mock.alith 0)),
    .call bob () (.transferFrom Mock.alith Mock.charlie (.lit 20)),
    .call bob () (.transferFrom Mock.alith Mock.charlie (.lit 40))]

def exampleRun : List (Ev FreeDigest H160 ExampleLedger Unit (2 ^ 128 - 1)) ×
    State FreeDigest H160 ExampleLedger (2 ^ 128 - 1) :=
  (machine exampleConfig).replay [] exampleGenesis exampleOps

theorem run_exampleRun :
    (machine exampleConfig).Run (fun _ _ _ => True) exampleRun.1 exampleRun.2 :=
  Machine.run_replay_all _ (.start ⟨fun _ _ => rfl, fun _ => rfl⟩)

theorem allowances_permit :
    lastApproval exampleConfig Mock.alith Mock.bob exampleRun.1 = some 50 ∧
      movedSince exampleConfig Mock.alith Mock.bob exampleRun.1 = 20 ∧
      allowance exampleRun.2 Mock.alith Mock.bob
        + movedSince exampleConfig Mock.alith Mock.bob exampleRun.1 = 50 :=
  ⟨by decide +kernel, by decide +kernel,
    (allowances run_exampleRun).1 Mock.alith Mock.bob 50 (by decide) (by decide +kernel)⟩

end Example

end Erc20Balances

end Moonkit
