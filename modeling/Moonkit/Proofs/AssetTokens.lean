import Moonkit.Base.Holdings
import Moonkit.Proofs.Approvals

/-!
# The assets ERC20 precompiles as tokens

The contracts of the set are over one pallet. Each asset is nevertheless a token of its own with
allowances: a call that answers is one act on the holdings of the asset of its contract, adds the
log of that act, and leaves the other assets (`call_refines`). So a run of the set is, at each
asset, a run of holdings.
-/

namespace Moonkit

namespace Erc20Assets

open Precompile Machine

variable {D AssetId A L E M : Type} {max : ℕ}

/-- What `pallet_assets` promises of its transfers, where `balance` is the balance of an account at
an asset: the amount moves, with the rest where that is too little to keep; a transfer that was
approved is taken off the approval; and what is not named stays. -/
structure PalletAssets.Standard (P : PalletAssets AssetId A L E max)
    (balance : L → AssetId → A → Uint max) : Prop where
  transfer_moves : ∀ {source id dest n l l'}, P.transfer source id dest n l = .ok l' →
    Holdings.Swept source dest n.val (fun a => (balance l id a).val)
      (fun a => (balance l' id a).val)
  transfer_others : ∀ {source id dest n l l'}, P.transfer source id dest n l = .ok l' →
    ∀ id', id' ≠ id → balance l' id' = balance l id'
  transfer_allowance : ∀ {source id dest n l l'}, P.transfer source id dest n l = .ok l' →
    P.allowance l' = P.allowance l
  transferApproved_moves : ∀ {delegate id owner dest n l l'},
    P.transferApproved delegate id owner dest n l = .ok l' →
    Holdings.Swept owner dest n.val (fun a => (balance l id a).val)
      (fun a => (balance l' id a).val)
  transferApproved_others : ∀ {delegate id owner dest n l l'},
    P.transferApproved delegate id owner dest n l = .ok l' →
    ∀ id', id' ≠ id → balance l' id' = balance l id'
  transferApproved_self : ∀ {delegate id owner dest n l l'},
    P.transferApproved delegate id owner dest n l = .ok l' →
    (P.allowance l' id owner delegate).val + n.val = (P.allowance l id owner delegate).val
  transferApproved_other : ∀ {delegate id owner dest n l l'},
    P.transferApproved delegate id owner dest n l = .ok l' →
    ∀ id' o d, (id', o, d) ≠ (id, owner, delegate) → P.allowance l' id' o d = P.allowance l id' o d
  approveTransfer_balance : ∀ {owner id delegate n l l'},
    P.approveTransfer owner id delegate n l = .ok l' → balance l' = balance l
  cancelApproval_balance : ∀ {owner id delegate l l'},
    P.cancelApproval owner id delegate l = .ok l' → balance l' = balance l

variable {cfg : Config D AssetId A L E M max} {balance : L → AssetId → A → Uint max}

section Requests

variable (cfg balance) in
/-- What the state is to the holders of an asset. -/
def holdings (id : AssetId) (s : State D L) : Holdings A where
  balance a := (balance s.assets id a).val
  allowance o sp := (cfg.pallet.allowance s.assets id o sp).val

variable (cfg) in
/-- What a call that answers does to the holdings of its asset. -/
def act (handle : Handle) : Request → Holdings.Act A
  | .approve spender value => .approve (cfg.intoAccountId handle.context.caller)
      (cfg.intoAccountId spender) (min value.val max)
  | .transfer to_ value => .move (cfg.intoAccountId handle.context.caller)
      (cfg.intoAccountId handle.context.caller) (cfg.intoAccountId to_) value.val
  | .transferFrom from_ to_ value => .move (cfg.intoAccountId handle.context.caller)
      (cfg.intoAccountId from_) (cfg.intoAccountId to_) value.val
  | .permit owner spender value _ _ => .approve (cfg.intoAccountId owner)
      (cfg.intoAccountId spender) (min value.val max)

variable (cfg) in
def logOf (handle : Handle) : Request → Log D
  | .approve spender value => log3 handle.context.address (selectorLogApproval cfg)
      handle.context.caller spender value
  | .transfer to_ value => log3 handle.context.address (selectorLogTransfer cfg)
      handle.context.caller to_ value
  | .transferFrom from_ to_ value => log3 handle.context.address (selectorLogTransfer cfg) from_ to_
      value
  | .permit owner spender value _ _ => log3 handle.codeAddress (selectorLogApproval cfg) owner
      spender value

variable {assetId : AssetId} {handle : Handle} {s s' : State D L} {m : M} {p' : State D L × M}

theorem record_eq_ok {log : Log D} {u : Unit} (h : record cfg log (s, m) = (.ok u, p')) :
    p'.1 = { s with logs := s.logs ++ [log] } := by
  obtain ⟨m₁, -, h⟩ := meter_bind_eq_ok.1 h
  obtain ⟨-, rfl⟩ := Prod.mk.inj h
  rfl

theorem transfer_eq_ok {to_ : H160} {value : U256} {b : Bool}
    (h : transfer cfg assetId handle to_ value (s, m) = (.ok b, p')) :
    ∃ amount : Uint max, amount.val = value.val ∧
      cfg.pallet.transfer (cfg.intoAccountId handle.context.caller) assetId (cfg.intoAccountId to_)
        amount s.assets = .ok p'.1.assets ∧
      p'.1.logs = s.logs ++ [logOf cfg handle (.transfer to_ value)] := by
  unfold transfer at h
  obtain ⟨m₁, -, h⟩ := meter_bind_eq_ok.1 h
  obtain ⟨amount, hamount, h⟩ := Call.okOr_bind_eq_ok.1 h
  obtain ⟨u, ⟨s₁, m₂⟩, hmove, h⟩ := Call.bind_eq_ok.1 h
  obtain ⟨l, hl, heq⟩ := dispatch_eq_ok hmove
  obtain rfl : s₁ = { s with assets := l } := heq
  obtain ⟨v, p₂, hlog, h⟩ := Call.bind_eq_ok.1 h
  obtain ⟨-, rfl⟩ := Prod.mk.inj h
  rw [record_eq_ok hlog]
  exact ⟨amount, U256.tryInto_eq_some.1 hamount, hl, rfl⟩

variable [DecidableEq A]

/-- The caller spends what is its own, or what it was approved. -/
theorem transferFrom_eq_ok {from_ to_ : H160} {value : U256} {b : Bool}
    (h : transferFrom cfg assetId handle from_ to_ value (s, m) = (.ok b, p')) :
    ∃ amount : Uint max, amount.val = value.val ∧
      (if cfg.intoAccountId handle.context.caller ≠ cfg.intoAccountId from_
        then cfg.pallet.transferApproved (cfg.intoAccountId handle.context.caller) assetId
          (cfg.intoAccountId from_) (cfg.intoAccountId to_) amount s.assets
        else cfg.pallet.transfer (cfg.intoAccountId from_) assetId (cfg.intoAccountId to_) amount
          s.assets) = .ok p'.1.assets ∧
      p'.1.logs = s.logs ++ [logOf cfg handle (.transferFrom from_ to_ value)] := by
  unfold transferFrom at h
  obtain ⟨m₁, -, h⟩ := meter_bind_eq_ok.1 h
  obtain ⟨amount, hamount, h⟩ := Call.okOr_bind_eq_ok.1 h
  obtain ⟨u, ⟨s₁, m₂⟩, hmove, h⟩ := Call.bind_eq_ok.1 h
  obtain ⟨v, p₂, hlog, h⟩ := Call.bind_eq_ok.1 h
  obtain ⟨-, rfl⟩ := Prod.mk.inj h
  rw [record_eq_ok hlog]
  refine ⟨amount, U256.tryInto_eq_some.1 hamount, ?_⟩
  split_ifs at hmove ⊢
  · obtain ⟨l, hl, heq⟩ := dispatch_eq_ok hmove
    obtain rfl : s₁ = { s with assets := l } := heq
    exact ⟨hl, rfl⟩
  · obtain ⟨l, hl, heq⟩ := dispatch_eq_ok hmove
    obtain rfl : s₁ = { s with assets := l } := heq
    exact ⟨hl, rfl⟩

/-- From `s` to `s'` the holdings of the asset make the act, and those of no other asset change. -/
structure Makes (cfg : Config D AssetId A L E M max) (balance : L → AssetId → A → Uint max)
    (assetId : AssetId) (act : Holdings.Act A) (s s' : State D L) : Prop where
  step : Holdings.Step Holdings.Swept (holdings cfg balance assetId s) act
    (holdings cfg balance assetId s')
  others : ∀ id, id ≠ assetId → holdings cfg balance id s' = holdings cfg balance id s

theorem Sets.makes {owner spender : A} {value : U256}
    (h : Sets cfg assetId owner spender value s s')
    (hkeeps : balance s'.assets = balance s.assets) :
    Makes cfg balance assetId (.approve owner spender (min value.val max)) s s' where
  step := by
    have hset : holdings cfg balance assetId s' = { holdings cfg balance assetId s with
        allowance := Holdings.setAllowance (holdings cfg balance assetId s).allowance owner spender
          (min value.val max) } := by
      refine Holdings.ext (by simp only [holdings, hkeeps])
        (Holdings.eq_setAllowance h.allowance fun o sp hne => ?_)
      exact congrArg Uint.val (h.others assetId o sp fun heq => hne (Prod.mk.inj heq).2)
    rw [hset]
    exact .approve
  others id hid := by
    refine Holdings.ext (by simp only [holdings, hkeeps]) (funext₂ fun o sp => ?_)
    refine congrArg Uint.val (h.others id o sp ?_)
    rintro ⟨⟩
    exact hid rfl

variable (hstd : cfg.pallet.Standard balance)

include hstd

theorem makes_transfer {source dest : A} {amount : Uint max}
    (hmove : cfg.pallet.transfer source assetId dest amount s.assets = .ok s'.assets) :
    Makes cfg balance assetId (.move source source dest amount.val) s s' where
  step := by
    have hset : holdings cfg balance assetId s' = { holdings cfg balance assetId s with
        balance := (holdings cfg balance assetId s').balance } :=
      Holdings.ext rfl (funext₂ fun o sp => by
        simp only [holdings, hstd.transfer_allowance hmove])
    rw [hset]
    exact .transfer (hstd.transfer_moves hmove)
  others id hid := Holdings.ext
    (funext fun a => congrArg Uint.val (congrFun (hstd.transfer_others hmove id hid) a))
    (funext₂ fun o sp => by simp only [holdings, hstd.transfer_allowance hmove])

theorem makes_transferApproved {caller source dest : A} {amount : Uint max} (hne : caller ≠ source)
    (hmove : cfg.pallet.transferApproved caller assetId source dest amount s.assets
      = .ok s'.assets) :
    Makes cfg balance assetId (.move caller source dest amount.val) s s' where
  step := by
    have hself := hstd.transferApproved_self hmove
    have hset : holdings cfg balance assetId s' = ⟨(holdings cfg balance assetId s').balance,
        Holdings.setAllowance (holdings cfg balance assetId s).allowance source caller
          ((holdings cfg balance assetId s).allowance source caller - amount.val)⟩ := by
      refine Holdings.ext rfl (Holdings.eq_setAllowance ?_ fun o sp hne => ?_)
      · simp only [holdings]
        omega
      · exact congrArg Uint.val
          (hstd.transferApproved_other hmove assetId o sp fun heq => hne (Prod.mk.inj heq).2)
    rw [hset]
    refine .transferFrom hne ?_ (hstd.transferApproved_moves hmove)
    simp only [holdings]
    omega
  others id hid := by
    refine Holdings.ext
      (funext fun a => congrArg Uint.val (congrFun (hstd.transferApproved_others hmove id hid) a))
      (funext₂ fun o sp => congrArg Uint.val (hstd.transferApproved_other hmove id o sp ?_))
    rintro ⟨⟩
    exact hid rfl

omit [DecidableEq A] in
/-- An approval dispatches nothing that moves balances. -/
theorem approveInner_keeps {owner spender : H160} {value : U256} {u : Unit}
    (h : approveInner cfg assetId owner spender value (s, m) = (.ok u, p')) :
    balance p'.1.assets = balance s.assets := by
  unfold approveInner at h
  obtain ⟨m₁, -, h⟩ := meter_bind_eq_ok.1 h
  rw [storage_bind] at h
  obtain ⟨v, ⟨s₁, m₂⟩, hclean, h⟩ := Call.bind_eq_ok.1 h
  have hcleaned : balance s₁.assets = balance s.assets := by
    split_ifs at hclean
    · obtain ⟨l₁, hl₁, heq⟩ := dispatch_eq_ok hclean
      obtain rfl : s₁ = { s with assets := l₁ } := heq
      exact hstd.cancelApproval_balance hl₁
    · obtain ⟨rfl, -⟩ := Prod.mk.inj (Prod.mk.inj hclean).2
      rfl
  obtain ⟨l, hl, heq⟩ := dispatch_eq_ok h
  rw [heq]
  exact (hstd.approveTransfer_balance hl).trans hcleaned

/-- A request that approves leaves the balances, and adds its log. -/
theorem approval_eq_ok {r : Request} {owner spender : H160} {value : U256} {u : Unit}
    (hr : r.approval handle = some (owner, spender, value))
    (h : run cfg assetId handle r (s, m) = (.ok u, p')) :
    balance p'.1.assets = balance s.assets ∧ p'.1.logs = s.logs ++ [logOf cfg handle r] := by
  cases r with
  | approve spender' value' =>
    obtain ⟨b, h⟩ := Call.exists_of_drop h
    unfold approve at h
    obtain ⟨m₁, -, h⟩ := meter_bind_eq_ok.1 h
    obtain ⟨v, ⟨s₁, m₂⟩, hinner, h⟩ := Call.bind_eq_ok.1 h
    have hkept := approveInner_keeps hstd hinner
    obtain ⟨l, heq, -⟩ := approveInner_eq_ok hinner
    obtain rfl : s₁ = { s with assets := l } := heq
    obtain ⟨w, p₂, hlog, h⟩ := Call.bind_eq_ok.1 h
    obtain ⟨-, rfl⟩ := Prod.mk.inj h
    rw [record_eq_ok hlog]
    exact ⟨hkept, rfl⟩
  | permit owner' spender' value' deadline sig =>
    have hp : permit cfg assetId handle owner' spender' value' deadline sig (s, m) = (.ok u, p') :=
      h
    unfold permit at hp
    obtain ⟨m₁, -, hp⟩ := meter_bind_eq_ok.1 hp
    rw [storage_bind] at hp
    obtain ⟨-, hp⟩ := Call.ensure_bind_eq_ok.1 hp
    obtain ⟨-, hp⟩ := ensureSigned_bind_eq_ok hp
    obtain ⟨next, -, hp⟩ := Call.expect_bind_eq_ok.1 hp
    rw [write_bind] at hp
    obtain ⟨v, ⟨s₁, m₂⟩, hinner, hp⟩ := Call.bind_eq_ok.1 hp
    have hkept := approveInner_keeps hstd hinner
    obtain ⟨l, heq, -⟩ := approveInner_eq_ok hinner
    subst heq
    rw [record_eq_ok hp]
    exact ⟨hkept, rfl⟩
  | _ => simp [Request.approval] at hr

/-- A request that answers makes its act and adds its log. -/
theorem run_makes {r : Request}
    (h : run cfg assetId handle r (s, m) = (.ok (), p')) :
    Makes cfg balance assetId (act cfg handle r) s p'.1 ∧
      p'.1.logs = s.logs ++ [logOf cfg handle r] := by
  obtain ⟨s', m'⟩ := p'
  cases r with
  | approve spender value =>
    have hr : (Request.approve spender value).approval handle
      = some (handle.context.caller, spender, value) := rfl
    obtain ⟨hkept, hlogs⟩ := approval_eq_ok hstd hr h
    exact ⟨(run_sets hr h).makes hkept, hlogs⟩
  | permit owner spender value deadline sig =>
    have hr : (Request.permit owner spender value deadline sig).approval handle
      = some (owner, spender, value) := rfl
    obtain ⟨hkept, hlogs⟩ := approval_eq_ok hstd hr h
    exact ⟨(run_sets hr h).makes hkept, hlogs⟩
  | transfer to_ value =>
    obtain ⟨b, h⟩ := Call.exists_of_drop h
    obtain ⟨amount, hamount, hmove, hlogs⟩ := transfer_eq_ok h
    refine ⟨?_, hlogs⟩
    rw [act, ← hamount]
    exact makes_transfer hstd hmove
  | transferFrom from_ to_ value =>
    obtain ⟨b, h⟩ := Call.exists_of_drop h
    obtain ⟨amount, hamount, hmove, hlogs⟩ := transferFrom_eq_ok h
    refine ⟨?_, hlogs⟩
    rw [act, ← hamount]
    split_ifs at hmove with howner
    · exact makes_transferApproved hstd howner hmove
    · rw [not_not.1 howner]
      exact makes_transfer hstd hmove

/-- A call is one act at one asset and adds its log, or it does not answer and leaves the state. -/
theorem call_refines (handle : Handle) (gas : M) (r : Request) (s : State D L) :
    (∃ assetId, assetAt cfg handle.codeAddress = some assetId ∧
      (call cfg handle gas r s).1 = some (.ok ()) ∧
      Makes cfg balance assetId (act cfg handle r) s (call cfg handle gas r s).2 ∧
      (call cfg handle gas r s).2.logs = s.logs ++ [logOf cfg handle r]) ∨
    (call cfg handle gas r s).1 ≠ some (.ok ()) ∧ (call cfg handle gas r s).2 = s := by
  rcases call_cases cfg handle gas r s with ⟨assetId, p', hasset, hrun, hcall⟩ | hfail
  · rw [hcall]
    exact .inl ⟨assetId, hasset, rfl, run_makes hstd hrun⟩
  · exact .inr hfail

end Requests

section Runs

variable [DecidableEq A] [DecidableEq AssetId]

/-- The events of the runs of the set. -/
abbrev Ev (D L M : Type) := Event (State D L) (Op L M) (Option (Outcome PrecompileFailure Unit))

variable (cfg) in
/-- What an event does to the holdings of an asset. -/
def actOf (id : AssetId) (e : Ev D L M) : Option (Holdings.Act A) :=
  match e.op with
  | .call handle _ r =>
    if e.answer = some (.ok ()) ∧ assetAt cfg handle.codeAddress = some id
    then some (act cfg handle r) else none
  | .elsewhere _ => some .replaced
  | .setTime _ => none

variable (cfg) in
def logged (e : Ev D L M) : Option (Log D) :=
  match e.op with
  | .call handle _ r => if e.answer = some (.ok ()) then some (logOf cfg handle r) else none
  | _ => none

variable {h : List (Ev D L M)} {s : State D L}
  {allow : List (Ev D L M) → State D L → Op L M → Prop}

section Standard

variable (hstd : cfg.pallet.Standard balance)

include hstd

/-- One operation is at most one act of an asset. -/
theorem event_refines (s : State D L) (op : Op L M) (id : AssetId) :
    Holdings.Does Holdings.Swept (holdings cfg balance id s)
      (actOf cfg id ((machine cfg).event s op))
      (holdings cfg balance id ((machine cfg).exec s op).2) := by
  cases op with
  | setTime now => rfl
  | elsewhere assets => exact .replaced
  | call handle gas r =>
    have hexec : (machine cfg).exec s (.call handle gas r) = call cfg handle gas r s := rfl
    simp only [actOf, Machine.event, hexec]
    rcases call_refines hstd handle gas r s with ⟨assetId, hasset, hok, hmakes, -⟩ | ⟨hne, hsame⟩
    · simp only [hok, hasset, true_and, Option.some.injEq]
      by_cases hid : assetId = id
      · subst hid
        rw [if_pos rfl]
        exact hmakes.step
      · rw [if_neg hid]
        exact hmakes.others id (Ne.symm hid)
    · rw [if_neg fun hok => hne hok.1, hsame]
      rfl

omit [DecidableEq AssetId] in
theorem event_logs (s : State D L) (op : Op L M) : ((machine cfg).exec s op).2.logs
    = s.logs ++ (logged cfg ((machine cfg).event s op)).toList := by
  cases op with
  | setTime now => exact (List.append_nil _).symm
  | elsewhere assets => exact (List.append_nil _).symm
  | call handle gas r =>
    have hexec : (machine cfg).exec s (.call handle gas r) = call cfg handle gas r s := rfl
    simp only [logged, Machine.event, hexec]
    rcases call_refines hstd handle gas r s with ⟨-, -, hok, -, hlogs⟩ | ⟨hne, hsame⟩
    · rw [if_pos hok, hlogs]
      rfl
    · rw [if_neg hne, hsame]
      exact (List.append_nil _).symm

theorem run_holdings (hr : (machine cfg).Run allow h s) (id : AssetId) :
    Holdings.Run Holdings.Swept (holdings cfg balance id (origin h s))
      (h.filterMap (actOf cfg id)) (holdings cfg balance id s) :=
  Holdings.run_of_machine (holdings cfg balance id) (actOf cfg id)
    (fun s op => event_refines hstd s op id) hr

end Standard

section Example

/-- Balances and approvals by asset. -/
structure ExampleLedger where
  balances : ℕ → H160 → U128
  approvals : ℕ → H160 → H160 → U128

/-- What leaves the source and what stays there; what would stay below the minimum goes along. -/
def debit (minimum : ℕ) (available n : U128) : Option (U128 × U128) :=
  (available.checkedSub n).map fun rest =>
    if rest.val < minimum then (available, 0) else (n, rest)

def sweep (minimum : ℕ) (b : H160 → U128) (source dest : H160) (n : U128) :
    Except String (H160 → U128) :=
  if n = 0 ∨ source = dest then .ok b
  else match debit minimum (b source) n with
    | none => .error "BalanceLow"
    | some (taken, kept) => match (b dest).checkedAdd taken with
      | none => .error "Overflow"
      | some sum => .ok (Function.update (Function.update b source kept) dest sum)

theorem debit_eq_some {minimum : ℕ} {available n taken kept : U128}
    (h : debit minimum available n = some (taken, kept)) :
    ∃ rest, kept.val + (n.val + rest) = available.val ∧ taken.val = n.val + rest ∧
      (rest = 0 ∨ kept.val = 0) := by
  unfold debit at h
  obtain ⟨rest, hrest, heq⟩ := Option.map_eq_some_iff.1 h
  have hsub := Uint.checkedSub_eq_some.1 hrest
  split_ifs at heq <;> obtain ⟨rfl, rfl⟩ := Prod.mk.inj heq
  · exact ⟨rest.val, by rw [Uint.val_zero]; omega, by omega, .inr Uint.val_zero⟩
  · exact ⟨0, by omega, by omega, .inl rfl⟩

theorem swept_of_sweep {minimum : ℕ} {b b' : H160 → U128} {source dest : H160} {n : U128}
    (h : sweep minimum b source dest n = .ok b') :
    Holdings.Swept source dest n.val (fun a => (b a).val) (fun a => (b' a).val) := by
  unfold sweep at h
  split_ifs at h with hnone
  · cases h
    refine ⟨fun _ => rfl, fun hne => ⟨0, ?_, ?_, .inl rfl⟩, fun _ _ _ => rfl⟩ <;>
      simp [hnone.resolve_right hne]
  · have hne : source ≠ dest := fun heq => hnone (.inr heq)
    rcases hd : debit minimum (b source) n with _ | ⟨taken, kept⟩ <;> simp only [hd] at h
    · cases h
    rcases hs : (b dest).checkedAdd taken with _ | sum <;> simp only [hs] at h
    · cases h
    cases h
    obtain ⟨rest, hsource, htaken, hrest⟩ := debit_eq_some hd
    have hsum := Uint.checkedAdd_eq_some.1 hs
    refine ⟨fun heq => absurd heq hne, fun _ => ⟨rest, ?_, ?_, ?_⟩, fun a ha hda => ?_⟩
    · simpa [Function.update_of_ne hne] using hsource
    · simpa [htaken] using hsum
    · simpa [Function.update_of_ne hne] using hrest
    · simp [ha, hda]

/-- An assets pallet of balances and approvals, for assets that all exist. -/
def examplePallet : PalletAssets ℕ H160 ExampleLedger String (2 ^ 128 - 1) where
  maybeTotalSupply _ _ := some 0
  name _ _ := []
  allowance l := l.approvals
  approveTransfer owner id delegate n l := .ok { l with
    approvals := Eip2612.setAllowance l.approvals id owner delegate
      ((l.approvals id owner delegate).saturatingAdd n) }
  cancelApproval owner id delegate l := .ok { l with
    approvals := Eip2612.setAllowance l.approvals id owner delegate 0 }
  transfer source id dest n l := (sweep 5 (l.balances id) source dest n).map fun b =>
    { l with balances := Function.update l.balances id b }
  transferApproved delegate id owner dest n l :=
    match (l.approvals id owner delegate).checkedSub n with
    | none => .error "Unapproved"
    | some rest => (sweep 5 (l.balances id) owner dest n).map fun b =>
      ⟨Function.update l.balances id b, Eip2612.setAllowance l.approvals id owner delegate rest⟩
  approveTransfer_self := by
    rintro owner id delegate n l _ ⟨⟩
    exact if_pos rfl
  approveTransfer_other := by
    rintro owner id delegate n l _ ⟨⟩ id' o d hne
    exact if_neg hne
  cancelApproval_self := by
    rintro owner id delegate l _ ⟨⟩
    exact if_pos rfl
  cancelApproval_other := by
    rintro owner id delegate l _ ⟨⟩ id' o d hne
    exact if_neg hne

theorem examplePallet_transferApproved {delegate owner dest : H160} {id : ℕ} {n : U128}
    {l l' : ExampleLedger}
    (h : examplePallet.transferApproved delegate id owner dest n l = .ok l') :
    ∃ rest b, (l.approvals id owner delegate).checkedSub n = some rest ∧
      sweep 5 (l.balances id) owner dest n = .ok b ∧
      l' = ⟨Function.update l.balances id b,
        Eip2612.setAllowance l.approvals id owner delegate rest⟩ := by
  simp only [examplePallet] at h
  rcases hs : (l.approvals id owner delegate).checkedSub n with _ | rest <;> simp only [hs] at h
  · cases h
  · obtain ⟨b, hb, rfl⟩ := exceptMap_eq_ok.1 h
    exact ⟨rest, b, rfl, hb, rfl⟩

theorem examplePallet_standard : examplePallet.Standard ExampleLedger.balances where
  transfer_moves h := by
    obtain ⟨b, hb, rfl⟩ := exceptMap_eq_ok.1 h
    simpa only [Function.update_self] using swept_of_sweep hb
  transfer_others h id' hne := by
    obtain ⟨b, hb, rfl⟩ := exceptMap_eq_ok.1 h
    exact Function.update_of_ne hne _ _
  transfer_allowance h := by
    obtain ⟨b, hb, rfl⟩ := exceptMap_eq_ok.1 h
    rfl
  transferApproved_moves h := by
    obtain ⟨rest, b, -, hb, rfl⟩ := examplePallet_transferApproved h
    simpa only [Function.update_self] using swept_of_sweep hb
  transferApproved_others h id' hne := by
    obtain ⟨rest, b, -, hb, rfl⟩ := examplePallet_transferApproved h
    exact Function.update_of_ne hne _ _
  transferApproved_self h := by
    obtain ⟨rest, b, hrest, -, rfl⟩ := examplePallet_transferApproved h
    simp only [examplePallet, Eip2612.setAllowance, if_true]
    exact Uint.checkedSub_eq_some.1 hrest
  transferApproved_other h id' o d hne := by
    obtain ⟨rest, b, -, -, rfl⟩ := examplePallet_transferApproved h
    exact if_neg hne
  approveTransfer_balance := by
    rintro owner id delegate n l _ ⟨⟩
    rfl
  cancelApproval_balance := by
    rintro owner id delegate l _ ⟨⟩
    rfl

def exampleConfig : Config FreeDigest ℕ H160 ExampleLedger String Unit (2 ^ 128 - 1) where
  toRuntime := Mock.runtime
  pallet := examplePallet
  accountToAssetId := Eip2612.exampleConfig.accountToAssetId
  toString := Nat.repr
  debug := id

/-- `alith` has 100 of every asset. -/
def exampleGenesis : State FreeDigest ExampleLedger where
  nonces _ _ := 0
  assets := ⟨fun _ a => if a = Mock.alith then .lit 100 else 0, fun _ _ _ => 0⟩
  now := 0
  logs := []

theorem exampleConfig_standard : exampleConfig.pallet.Standard ExampleLedger.balances :=
  examplePallet_standard

def exampleCall (caller : H160) (asset : UInt8) (r : Request) : Op ExampleLedger Unit :=
  let contract : H160 := (Vector.replicate 19 255).push asset
  .call ⟨Mock.context caller contract, contract⟩ () r

/-- At the asset 7, bob spends of what alith approved, and asks for more than is left of it; at the
asset 8, alith sends so much that the rest is too little to keep. -/
def exampleOps : List (Op ExampleLedger Unit) :=
  [exampleCall Mock.alith 7 (.approve Mock.bob (.lit 50)),
    exampleCall Mock.bob 7 (.transferFrom Mock.alith Mock.charlie (.lit 30)),
    exampleCall Mock.bob 7 (.transferFrom Mock.alith Mock.charlie (.lit 30)),
    exampleCall Mock.alith 8 (.transfer Mock.charlie (.lit 97))]

def exampleRun : List (Ev FreeDigest ExampleLedger Unit) × State FreeDigest ExampleLedger :=
  (machine exampleConfig).replay [] exampleGenesis exampleOps

theorem run_exampleRun : (machine exampleConfig).Run (fun _ _ op => ∀ l, op ≠ .elsewhere l)
    exampleRun.1 exampleRun.2 := by
  refine Machine.run_replay exampleOps (.start fun _ _ => rfl) ?_
  refine ⟨?_, ?_, ?_, ?_, trivial⟩ <;> exact fun l h => by cases h

end Example

/-- **Token refinement.** At every asset, a run of the set is a run of the holdings whose acts are
those of the calls that answered at that asset; and the logs of the set are the logs of the calls
that answered, in their order. -/
theorem refines_tokens (hstd : cfg.pallet.Standard balance)
    (hr : (machine cfg).Run (fun _ _ _ => True) h s) :
    (∀ id, Holdings.Run Holdings.Swept (holdings cfg balance id (origin h s))
      (h.filterMap (actOf cfg id)) (holdings cfg balance id s)) ∧
    s.logs = (origin h s).logs ++ h.reverse.filterMap (logged cfg) :=
  ⟨fun id => run_holdings hstd hr id, hr.written_eq State.logs (logged cfg) (event_logs hstd)⟩

/-- The acts at two assets: bob's second spending does not answer. -/
theorem refines_tokens_sampled :
    (Holdings.Run Holdings.Swept (holdings exampleConfig ExampleLedger.balances 7 exampleGenesis)
        [.move Mock.bob Mock.alith Mock.charlie 30, .approve Mock.alith Mock.bob 50]
        (holdings exampleConfig ExampleLedger.balances 7 exampleRun.2) ∧
      Holdings.Run Holdings.Swept (holdings exampleConfig ExampleLedger.balances 8 exampleGenesis)
        [.move Mock.alith Mock.alith Mock.charlie 97]
        (holdings exampleConfig ExampleLedger.balances 8 exampleRun.2)) ∧
      exampleRun.2.logs.length = 3 := by
  obtain ⟨hacts, hlogs⟩ := refines_tokens exampleConfig_standard
    (Machine.run_replay_all exampleOps (.start (s := exampleGenesis) fun _ _ => rfl))
  refine ⟨⟨hacts 7, hacts 8⟩, ?_⟩
  rw [show exampleRun.2.logs = _ from hlogs]
  rfl

/-- The acts of a run that nothing else interferes with are of the holders. -/
theorem acts_own {id : AssetId}
    (hr : (machine cfg).Run (fun _ _ op => ∀ l, op ≠ .elsewhere l) h s) :
    ∀ act ∈ h.filterMap (actOf cfg id), act.Own := by
  intro act hmem
  obtain ⟨e, he, hact⟩ := List.mem_filterMap.1 hmem
  obtain ⟨h', -, hallow, -⟩ := hr.mem_event he
  rcases hop : e.op with ⟨handle, gas, r⟩ | now | assets <;> simp only [actOf, hop] at hact
  · split_ifs at hact
    cases r <;> cases hact <;> exact ⟨nofun, nofun⟩
  · cases hact
  · exact absurd hop (hallow assets)

/-- **Assets by consent.** While the assets change by calls alone, every asset is on its own: one
at which no call answers stays as it was. An account has at least what it had and received, as long
as nothing is moved from it. Spenders have never spent more of an account than they were allowed at
first and were granted since, both at this asset. And what the accounts taking part have of the
asset together stays the same. -/
theorem assets_by_consent (hstd : cfg.pallet.Standard balance)
    (hr : (machine cfg).Run (fun _ _ op => ∀ l, op ≠ .elsewhere l) h s) (id : AssetId) :
    (h.filterMap (actOf cfg id) = [] →
      holdings cfg balance id s = holdings cfg balance id (origin h s)) ∧
    (∀ a, (∀ caller dest n, .move caller a dest n ∉ h.filterMap (actOf cfg id)) →
      (balance (origin h s).assets id a).val
        + ((h.filterMap (actOf cfg id)).map (Holdings.Act.into a)).sum
      ≤ (balance s.assets id a).val) ∧
    (∀ a sp, sp ≠ a → ((h.filterMap (actOf cfg id)).map (Holdings.Act.spent a sp)).sum
        + (cfg.pallet.allowance s.assets id a sp).val
      ≤ (cfg.pallet.allowance (origin h s).assets id a sp).val
        + ((h.filterMap (actOf cfg id)).map (Holdings.Act.granted a sp)).sum) ∧
    ∀ S : Finset A, (∀ act ∈ h.filterMap (actOf cfg id), ∀ a, act.About a → a ∈ S) →
      ∑ a ∈ S, (balance s.assets id a).val = ∑ a ∈ S, (balance (origin h s).assets id a).val := by
  have hrun := run_holdings hstd hr id
  have hown : ∀ act ∈ h.filterMap (actOf cfg id), act.Own := acts_own hr
  refine ⟨fun hnone => ?_, fun a => hrun.balance_add_into_le hown,
    fun a sp => hrun.spent_add_allowance_le fun hmem => (hown _ hmem).2 rfl,
    fun S => hrun.sum_eq hown⟩
  rw [hnone] at hrun
  exact hrun.eq_start

/-- At the asset 7 bob spends within what alith approved, at the asset 8 charlie has all that alith
had, and nothing happens at the asset 9. -/
theorem assets_by_consent_sampled :
    30 + (exampleRun.2.assets.approvals 7 Mock.alith Mock.bob).val ≤ 50 ∧
      97 ≤ (exampleRun.2.assets.balances 8 Mock.charlie).val ∧
      holdings exampleConfig ExampleLedger.balances 9 exampleRun.2
        = holdings exampleConfig ExampleLedger.balances 9 exampleGenesis ∧
      ∑ a ∈ {Mock.alith, Mock.charlie}, (exampleRun.2.assets.balances 8 a).val
        = ∑ a ∈ {Mock.alith, Mock.charlie}, (exampleGenesis.assets.balances 8 a).val := by
  obtain ⟨-, -, hspent, -⟩ := assets_by_consent exampleConfig_standard run_exampleRun 7
  obtain ⟨-, hkept, -, hsum⟩ := assets_by_consent exampleConfig_standard run_exampleRun 8
  obtain ⟨hstays, -⟩ := assets_by_consent exampleConfig_standard run_exampleRun 9
  have hacts : exampleRun.1.filterMap (actOf exampleConfig 8)
    = [.move Mock.alith Mock.alith Mock.charlie 97] := rfl
  refine ⟨hspent Mock.alith Mock.bob (by decide), hkept Mock.charlie ?_, hstays rfl, hsum _ ?_⟩
  · intro caller dest n hmem
    rw [hacts, List.mem_singleton, Holdings.Act.move.injEq] at hmem
    exact absurd hmem.2.1 (by decide)
  · intro act hmem a ha
    rw [hacts, List.mem_singleton] at hmem
    subst hmem
    simpa [Holdings.Act.About] using ha

end Runs

end Erc20Assets

end Moonkit
