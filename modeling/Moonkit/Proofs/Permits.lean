import Moonkit.Erc20Assets
import Moonkit.Proofs.Allowances
import Moonkit.PrecompilesMock

/-!
# EIP-2612 permits of the ERC20 precompiles

Both precompiles take permits as the standard asks, the one with nonces by instance and owner and
with approvals of its own, the other with nonces by contract and owner and with the approvals of
`pallet_assets`. Every event of their runs is then a `View.Step`, and no signed permit goes through
twice (`permits_once`).
-/

namespace Moonkit

open Precompile Machine

namespace Erc20Assets

variable {D AssetId A L E M : Type} {max : ℕ} {cfg : Config D AssetId A L E M max}

section Calls

variable {s : State D L} {m : M} {p' : State D L × M} {assetId : AssetId} {handle : Handle}

theorem dispatch_eq_ok {x : L → Except E L} {n : U64} {u : Unit}
    (h : dispatch cfg x n (s, m) = (.ok u, p')) :
    ∃ l, x s.assets = .ok l ∧ p'.1 = { s with assets := l } := by
  have hx := tryDispatch_eq_ok h
  obtain ⟨l, hl, hp'⟩ := exceptMap_eq_ok.1 hx
  exact ⟨l, hl, hp'.symm⟩

/-- An approval sets the allowance, whatever it was, and no other. -/
theorem approveInner_eq_ok {owner spender : H160} {value : U256} {u : Unit}
    (h : approveInner cfg assetId owner spender value (s, m) = (.ok u, p')) :
    ∃ l, p'.1 = { s with assets := l } ∧
      (cfg.pallet.allowance l assetId (cfg.intoAccountId owner) (cfg.intoAccountId spender)).val
        = min value.val max ∧
      ∀ id o d, (id, o, d) ≠ (assetId, cfg.intoAccountId owner, cfg.intoAccountId spender) →
        cfg.pallet.allowance l id o d = cfg.pallet.allowance s.assets id o d := by
  unfold approveInner at h
  obtain ⟨m₁, -, h⟩ := meter_bind_eq_ok.1 h
  rw [storage_bind] at h
  obtain ⟨v, ⟨s₁, m₂⟩, hclean, h⟩ := Call.bind_eq_ok.1 h
  -- the previous approval is gone, and the others are as before
  have hcleaned : ∃ l₁, s₁ = { s with assets := l₁ } ∧
      cfg.pallet.allowance l₁ assetId (cfg.intoAccountId owner) (cfg.intoAccountId spender) = 0 ∧
      ∀ id o d, (id, o, d) ≠ (assetId, cfg.intoAccountId owner, cfg.intoAccountId spender) →
        cfg.pallet.allowance l₁ id o d = cfg.pallet.allowance s.assets id o d := by
    split_ifs at hclean with hzero
    · obtain ⟨l₁, hl₁, hs₁⟩ := dispatch_eq_ok hclean
      exact ⟨l₁, hs₁, cfg.pallet.cancelApproval_self hl₁, cfg.pallet.cancelApproval_other hl₁⟩
    · obtain ⟨rfl, rfl⟩ := Prod.mk.inj (Prod.mk.inj hclean).2
      exact ⟨s.assets, rfl, not_not.1 hzero, fun _ _ _ _ => rfl⟩
  obtain ⟨l₁, rfl, hself, hother⟩ := hcleaned
  obtain ⟨l, hl, hp'⟩ := dispatch_eq_ok h
  refine ⟨l, hp', ?_, fun id o d hne => ?_⟩
  · rw [cfg.pallet.approveTransfer_self hl, hself, Uint.saturatingAdd_val,
      U256.saturatingInto_val, Uint.val_zero]
    omega
  · rw [cfg.pallet.approveTransfer_other hl id o d hne, hother id o d hne]

/-- A permit was signed for the nonce of its owner, puts it up, and sets one allowance. -/
theorem permit_eq_ok {owner spender : H160} {value deadline : U256} {sig : Signature} {u : Unit}
    (h : permit cfg assetId handle owner spender value deadline sig (s, m) = (.ok u, p')) :
    cfg.crypto.signer sig (generatePermit cfg s.assets assetId ⟨handle.codeAddress, owner, spender,
        value, s.nonces handle.codeAddress owner, deadline⟩) = some owner ∧
      ∃ next, (s.nonces handle.codeAddress owner).checkedAdd U256.one = some next ∧
        p'.1.nonces = Function.update s.nonces handle.codeAddress
          (Function.update (s.nonces handle.codeAddress) owner next) ∧
        (cfg.pallet.allowance p'.1.assets assetId (cfg.intoAccountId owner)
          (cfg.intoAccountId spender)).val = min value.val max ∧
        ∀ id o d, (id, o, d) ≠ (assetId, cfg.intoAccountId owner, cfg.intoAccountId spender) →
          cfg.pallet.allowance p'.1.assets id o d = cfg.pallet.allowance s.assets id o d := by
  unfold permit at h
  obtain ⟨m₁, -, h⟩ := meter_bind_eq_ok.1 h
  rw [storage_bind] at h
  obtain ⟨-, h⟩ := Call.ensure_bind_eq_ok.1 h
  obtain ⟨hsigner, h⟩ := ensureSigned_bind_eq_ok h
  obtain ⟨next, hnext, h⟩ := Call.expect_bind_eq_ok.1 h
  rw [write_bind] at h
  obtain ⟨x, ⟨s₄, m₄⟩, happrove, h⟩ := Call.bind_eq_ok.1 h
  obtain ⟨l, rfl, hself, hother⟩ := approveInner_eq_ok happrove
  obtain ⟨m₅, -, h⟩ := meter_bind_eq_ok.1 h
  obtain ⟨-, rfl⟩ := Prod.mk.inj h
  exact ⟨hsigner, next, hnext, rfl, hself, hother⟩

theorem keeps_dispatch (x : L → Except E L) (n : U64) :
    Call.Keeps (fun p => p.1.nonces) (dispatch cfg x n) := by
  refine keeps_tryDispatch n fun s s' hs => ?_
  obtain ⟨l, -, rfl⟩ := exceptMap_eq_ok.1 hs
  rfl

theorem keeps_record (log : Log D) : Call.Keeps (fun p => p.1.nonces) (record cfg log) :=
  (keeps_meter _).bind fun _ => keeps_write fun _ => rfl

theorem keeps_approveInner (owner spender : H160) (value : U256) :
    Call.Keeps (fun p => p.1.nonces) (approveInner cfg assetId owner spender value) := by
  refine (keeps_meter _).bind fun _ p => ?_
  rw [storage_bind]
  refine Call.Keeps.bind ?_ (fun _ => keeps_dispatch _ _) p
  split_ifs
  · exact keeps_dispatch _ _
  · exact Call.Keeps.pure _

variable [DecidableEq A]

/-- Only a permit changes nonces. -/
theorem keeps_run {r : Request} (hr : ∀ o sp v d sig, r ≠ .permit o sp v d sig) :
    Call.Keeps (fun p => p.1.nonces) (run cfg assetId handle r) := by
  cases r with
  | approve spender value =>
    refine Call.Keeps.bind ?_ fun _ => Call.Keeps.pure _
    exact (keeps_meter _).bind fun _ => (keeps_approveInner _ _ _).bind fun _ =>
      (keeps_record _).bind fun _ => Call.Keeps.pure _
  | transfer to_ value =>
    refine Call.Keeps.bind ?_ fun _ => Call.Keeps.pure _
    exact (keeps_meter _).bind fun _ => (Call.Keeps.okOr _ _).bind fun _ =>
      (keeps_dispatch _ _).bind fun _ => (keeps_record _).bind fun _ => Call.Keeps.pure _
  | transferFrom from_ to_ value =>
    refine Call.Keeps.bind ?_ fun _ => Call.Keeps.pure _
    refine (keeps_meter _).bind fun _ => (Call.Keeps.okOr _ _).bind fun _ =>
      Call.Keeps.bind ?_ fun _ => (keeps_record _).bind fun _ => Call.Keeps.pure _
    split_ifs
    · exact keeps_dispatch _ _
    · exact keeps_dispatch _ _
  | permit owner spender value deadline sig => exact absurd rfl (hr _ _ _ _ _)

end Calls

section Machine

variable [DecidableEq A]

/-- The asset an address of the set stands for, if there is one. -/
def assetAt (cfg : Config D AssetId A L E M max) (contract : H160) : Option AssetId :=
  (cfg.accountToAssetId (cfg.intoAccountId contract)).map Prod.snd

/-- How the set takes permits. -/
def permits (cfg : Config D AssetId A L E M max) :
    Eip2612.View (State D L) (Op L M) (Option (Outcome PrecompileFailure Unit)) D (H160 × H160)
      (Option AssetId × A × A) where
  permitted e := match e.op with
    | .call handle _ (.permit owner spender value deadline sig) =>
      if e.answer = some (.ok ()) then
        some (⟨handle.codeAddress, owner, spender, value, e.before.nonces handle.codeAddress owner,
          deadline⟩, sig)
      else none
    | _ => none
  digest s p := Eip2612.generatePermit cfg.crypto cfg.chainId
    ((assetAt cfg p.contract).elim [] (permitName cfg s.assets)) p
  nonce s k := s.nonces k.1 k.2
  key p := (p.contract, p.owner)
  allowance s l := l.1.elim 0 fun id => (cfg.pallet.allowance s.assets id l.2.1 l.2.2).val
  place p := (assetAt cfg p.contract, cfg.intoAccountId p.owner, cfg.intoAccountId p.spender)
  maxBalance _ := max

omit [DecidableEq A] in
theorem assetAt_of_discriminant {s : State D L} {address : H160} {gas extra : U64}
    {assetId : AssetId} (h : discriminant cfg s address gas = .some assetId extra) :
    assetAt cfg address = some assetId := by
  unfold discriminant at h
  simp only at h
  split_ifs at h
  rcases ha : cfg.accountToAssetId (cfg.intoAccountId address) with _ | ⟨bytes, id⟩ <;>
    simp only [ha] at h
  · simp at h
  · split_ifs at h
    simp only [DiscriminantResult.some.injEq] at h
    rw [assetAt, ha, ← h.1]
    rfl

/-- A call runs at an asset and answers, or it leaves the state as it is. -/
theorem call_cases (cfg : Config D AssetId A L E M max) (handle : Handle) (gas : M) (r : Request)
    (s : State D L) :
    (∃ assetId p', assetAt cfg handle.codeAddress = some assetId ∧
      run cfg assetId handle r (s, gas) = (.ok (), p') ∧
      call cfg handle gas r s = (some (.ok ()), p'.1)) ∨
    ((call cfg handle gas r s).1 ≠ some (.ok ()) ∧ (call cfg handle gas r s).2 = s) := by
  unfold call
  rcases hd : discriminant cfg s handle.codeAddress (cfg.metering.remainingGas gas) with
    ⟨assetId, extra⟩ | extra | _
  · simp only
    rcases Call.transactional_cases (run cfg assetId handle r) (s, gas) with
      ⟨u, p', hrun, htrans⟩ | ⟨hrun, htrans⟩
    · exact .inl ⟨assetId, p', assetAt_of_discriminant hd, hrun, by rw [htrans]⟩
    · refine .inr ⟨fun hok => ?_, by rw [htrans]⟩
      exact hrun () _ (Call.transactional_eq_ok.1 (Prod.ext (Option.some.inj hok) rfl))
  · exact .inr ⟨by simp, rfl⟩
  · exact .inr ⟨by simp, rfl⟩

omit [DecidableEq A] in
theorem granted_of_run {s : State D L} {handle : Handle} {gas : M} {owner spender : H160}
    {value deadline : U256} {sig : Signature} {assetId : AssetId} {p' : State D L × M}
    {e : Event (State D L) (Op L M) (Option (Outcome PrecompileFailure Unit))}
    (hbefore : e.before = s) (hafter : e.after = p'.1)
    (hasset : assetAt cfg handle.codeAddress = some assetId)
    (hrun : permit cfg assetId handle owner spender value deadline sig (s, gas) = (.ok (), p')) :
    (permits cfg).Granted cfg.crypto e ⟨handle.codeAddress, owner, spender, value,
      s.nonces handle.codeAddress owner, deadline⟩ sig := by
  obtain ⟨hsigned, next, hnext, hnonces, hself, hother⟩ := permit_eq_ok hrun
  subst hbefore
  refine ⟨?_, rfl, ?_, ?_, ?_, ?_⟩
  · simpa only [permits, generatePermit, hasset, Option.elim_some] using hsigned
  · simp only [permits, hafter, hnonces, Function.update_self]
    exact Uint.checkedAdd_eq_some.1 hnext
  · rintro ⟨contract, o⟩ hne
    simp only [permits, hafter, hnonces]
    by_cases hc : contract = handle.codeAddress
    · subst hc
      rw [Function.update_self, Function.update_of_ne]
      rintro rfl
      exact hne rfl
    · rw [Function.update_of_ne hc]
  · simpa only [permits, hafter, hasset, Option.elim_some] using hself
  · rintro ⟨_ | id, o, d⟩ hne
    · rfl
    · simp only [permits, hafter, Option.elim_some]
      rw [hother id o d]
      rintro h
      rw [Prod.mk.injEq, Prod.mk.injEq] at h
      obtain ⟨rfl, rfl, rfl⟩ := h
      exact hne (by simp [permits, hasset])

theorem step_of_run {s : State D L} {handle : Handle} {gas : M} {r : Request} {assetId : AssetId}
    {p' : State D L × M} (hasset : assetAt cfg handle.codeAddress = some assetId)
    (hrun : run cfg assetId handle r (s, gas) = (.ok (), p')) :
    (permits cfg).Step cfg.crypto ⟨s, .call handle gas r, some (.ok ()), p'.1⟩ := by
  have hnonces (hr : ∀ o sp v d sig, r ≠ .permit o sp v d sig) (k : H160 × H160) :
      p'.1.nonces k.1 k.2 = s.nonces k.1 k.2 := by
    have hkeeps : Call.Keeps (fun p => p.1.nonces) (run cfg assetId handle r) := keeps_run hr
    have hsame := hkeeps (s, gas)
    rw [hrun] at hsame
    exact congrFun (congrFun hsame k.1) k.2
  cases r with
  | permit owner spender value deadline sig =>
    exact .of_permitted (by simp [permits]) (granted_of_run rfl rfl hasset hrun)
  | _ => exact .of_unpermitted rfl (hnonces (by simp))

theorem step_permits (s : State D L) (op : Op L M) :
    (permits cfg).Step cfg.crypto ((machine cfg).event s op) := by
  cases op with
  | setTime now => exact .of_unpermitted rfl fun _ => rfl
  | elsewhere assets => exact .of_unpermitted rfl fun _ => rfl
  | call handle gas r =>
    rcases call_cases cfg handle gas r s with ⟨assetId, p', hasset, hrun, hcall⟩ | ⟨herr, hsame⟩
    · have hevent : (machine cfg).event s (.call handle gas r)
          = ⟨s, .call handle gas r, some (.ok ()), p'.1⟩ := by
        simp only [event, machine, hcall]
      rw [hevent]
      exact step_of_run hasset hrun
    · refine .of_unpermitted ?_ fun k => by simp only [permits, event, machine, hsame]
      cases r with
      | permit owner spender value deadline sig => simp [permits, event, machine, herr]
      | _ => rfl

theorem once_of_run
    {h : List (Event (State D L) (Op L M) (Option (Outcome PrecompileFailure Unit)))}
    {s : State D L} (hr : (machine cfg).Run (fun _ _ _ => True) h s) :
    (permits cfg).Once cfg.crypto h := by
  refine Eip2612.View.once_of_run ?_ (fun _ t op _ _ => step_permits t op)
    (fun _ _ _ _ hd => Eip2612.generatePermit_inj hd) hr
  intro t ht k
  exact ht k.1 k.2

end Machine

end Erc20Assets

namespace Erc20Balances

variable {D A M I : Type} {L : I → Type} {max : I → ℕ} [DecidableEq A] [DecidableEq I]

/-- How the instances take permits, each at the addresses it is installed at. -/
def permits (rt : Runtime D A M) (tokens : (i : I) → Token A (L i) (max i))
    (installed : H160 → Option I) :
    Eip2612.View ((i : I) → State D A (L i) (max i)) (SetOp I L M)
      (Outcome PrecompileFailure Unit) D (Option I × H160) (Option I × A × A) where
  permitted e := match e.op with
    | .on i (.call ctx _ (.permit owner spender value deadline sig)) =>
      if e.answer = .ok () then
        some (⟨ctx.address, owner, spender, value, (e.before i).nonces owner, deadline⟩, sig)
      else none
    | _ => none
  digest _ p := Eip2612.generatePermit rt.crypto rt.chainId
    ((installed p.contract).elim [] fun i => (tokens i).name) p
  nonce s k := k.1.elim 0 fun i => (s i).nonces k.2
  key p := (installed p.contract, p.owner)
  allowance s l := l.1.elim 0 fun i => allowance (s i) l.2.1 l.2.2
  place p := (installed p.contract, rt.intoAccountId p.owner, rt.intoAccountId p.spender)
  maxBalance l := l.1.elim 0 max

variable {rt : Runtime D A M} {tokens : (i : I) → Token A (L i) (max i)}
  {installed : H160 → Option I} {s : (i : I) → State D A (L i) (max i)}

namespace Wrote

variable {L : Type} {max : ℕ} {cfg : Config D A L M max} {ctx : Context} {s s' : State D A L max}

theorem nonces {r : Request} (hw : Wrote cfg ctx s r s')
    (hr : ∀ o sp v d sig, r ≠ .permit o sp v d sig) : s'.nonces = s.nonces := by
  cases hw with
  | permit logs => exact absurd rfl (hr _ _ _ _ _)
  | _ => rfl

theorem permit_effect {owner spender : H160} {value deadline : U256} {sig : Signature}
    (hw : Wrote cfg ctx s (.permit owner spender value deadline sig) s') :
    ∃ next, (s.nonces owner).checkedAdd U256.one = some next ∧
      s'.nonces = Function.update s.nonces owner next ∧
      s'.approves = insertApproval s.approves (cfg.intoAccountId owner) (cfg.intoAccountId spender)
        (value.saturatingInto max) := by
  cases hw with
  | permit logs _ _ hnext => exact ⟨_, hnext, rfl, rfl⟩

end Wrote

theorem granted_of_wrote {i : I} {ctx : Context} {owner spender : H160} {value deadline : U256}
    {sig : Signature} {s' : State D A (L i) (max i)}
    {e : Event ((i : I) → State D A (L i) (max i)) (SetOp I L M) (Outcome PrecompileFailure Unit)}
    (hat : installed ctx.address = some i)
    (hbefore : e.before = s) (hafter : e.after = Function.update s i s')
    (hw : Wrote ⟨rt, tokens i⟩ ctx (s i) (.permit owner spender value deadline sig) s') :
    (permits rt tokens installed).Granted rt.crypto e
      ⟨ctx.address, owner, spender, value, (s i).nonces owner, deadline⟩ sig := by
  obtain ⟨next, hnext, hnonces, happroves⟩ := hw.permit_effect
  subst hbefore
  refine ⟨?_, ?_, ?_, ?_, ?_, ?_⟩
  · simpa only [permits, generatePermit, hat, Option.elim_some] using hw.signed
  · simp only [permits, hat, Option.elim_some]
  · simp only [permits, hat, hafter, Option.elim_some, Function.update_self, hnonces]
    exact Uint.checkedAdd_eq_some.1 hnext
  · rintro ⟨_ | j, o⟩ hne
    · rfl
    simp only [permits, hafter, Option.elim_some]
    by_cases hj : j = i
    · subst hj
      rw [Function.update_self, hnonces, Function.update_of_ne]
      rintro rfl
      exact hne (by simp only [permits, hat])
    · rw [Function.update_of_ne hj]
  · simp only [permits, hat, hafter, Option.elim_some, Function.update_self, allowance, happroves,
      insertApproval_self, Option.getD_some]
    exact U256.saturatingInto_val (max i) value
  · rintro ⟨_ | j, o, sp⟩ hne
    · rfl
    simp only [permits, hafter, Option.elim_some]
    by_cases hj : j = i
    · subst hj
      rw [Function.update_self, allowance, allowance, happroves, insertApproval_of_ne]
      rintro h
      rw [Prod.mk.injEq] at h
      obtain ⟨rfl, rfl⟩ := h
      exact hne (by simp only [permits, hat])
    · rw [Function.update_of_ne hj]

omit [DecidableEq A] in
theorem nonce_update {i : I} {s' : State D A (L i) (max i)} (h : s'.nonces = (s i).nonces)
    (k : Option I × H160) : (permits rt tokens installed).nonce (Function.update s i s') k
      = (permits rt tokens installed).nonce s k := by
  obtain ⟨_ | j, o⟩ := k
  · rfl
  simp only [permits, Option.elim_some]
  by_cases hj : j = i
  · subst hj
    rw [Function.update_self, h]
  · rw [Function.update_of_ne hj]

theorem step_of_wrote {i : I} {ctx : Context} {gas : M} {r : Request}
    {s' : State D A (L i) (max i)} (hat : installed ctx.address = some i)
    (hw : Wrote ⟨rt, tokens i⟩ ctx (s i) r s') :
    (permits rt tokens installed).Step rt.crypto
      ⟨s, .on i (.call ctx gas r), .ok (), Function.update s i s'⟩ := by
  cases r with
  | permit owner spender value deadline sig =>
    exact .of_permitted (by simp [permits]) (granted_of_wrote hat rfl rfl hw)
  | _ => exact .of_unpermitted rfl (nonce_update (hw.nonces (by simp)))

theorem step_permits (op : SetOp I L M) (hreach : Reaches installed op) :
    (permits rt tokens installed).Step rt.crypto ((setMachine rt tokens).event s op) := by
  cases op with
  | setTime now =>
    refine .of_unpermitted rfl fun k => ?_
    obtain ⟨_ | j, o⟩ := k <;> rfl
  | on i op =>
    rcases exec_cases ⟨rt, tokens i⟩ (s i) op with ⟨ctx, gas, r, rfl, hok, hw⟩ | ⟨herr, -, hsame⟩
    · have hevent : (setMachine rt tokens).event s (.on i (.call ctx gas r))
          = ⟨s, .on i (.call ctx gas r), .ok (), Function.update s i
            (exec ⟨rt, tokens i⟩ (s i) (.call ctx gas r)).2⟩ := by
        simp only [event, setMachine, hok]
      rw [hevent]
      exact step_of_wrote hreach hw
    · refine .of_unpermitted ?_ (nonce_update hsame)
      cases op with
      | call ctx gas r =>
        have hfail : (exec ⟨rt, tokens i⟩ (s i) (.call ctx gas r)).1 ≠ .ok () := herr ctx gas r rfl
        cases r with
        | permit owner spender value deadline sig' => simp [permits, event, setMachine, hfail]
        | _ => rfl
      | _ => rfl

theorem once_of_run {h : List (Event ((i : I) → State D A (L i) (max i)) (SetOp I L M)
      (Outcome PrecompileFailure Unit))}
    (hr : (setMachine rt tokens).Run (fun _ _ op => Reaches installed op) h s) :
    (permits rt tokens installed).Once rt.crypto h := by
  refine Eip2612.View.once_of_run ?_ (fun _ _ op _ hreach => step_permits op hreach)
    (fun _ _ _ _ hd => Eip2612.generatePermit_inj hd) hr
  rintro t ht ⟨_ | i, o⟩
  · rfl
  · exact (ht i).2 o

end Erc20Balances

namespace Eip2612

variable {D A M I AssetId E LA : Type} {L : I → Type} {max : I → ℕ} {maxA : ℕ} [DecidableEq A]
  [DecidableEq I]

/-- Permits of the balances precompiles and of the assets precompiles: along every run of calls and
blocks, a permit that goes through is signed by its owner for the current nonce, puts up that nonce
only, and sets that allowance only; and no signed permit goes through twice. -/
theorem permits_once (rt : Runtime D A M) (tokens : (i : I) → Erc20Balances.Token A (L i) (max i))
    (installed : H160 → Option I) (cfg : Erc20Assets.Config D AssetId A LA E M maxA) :
    (∀ h s, (Erc20Balances.setMachine rt tokens).Run
        (fun _ _ op => Erc20Balances.Reaches installed op) h s →
      (Erc20Balances.permits rt tokens installed).Once rt.crypto h) ∧
    (∀ h s, (Erc20Assets.machine cfg).Run (fun _ _ _ => True) h s →
      (Erc20Assets.permits cfg).Once cfg.crypto h) := by
  exact ⟨fun _ _ hr => Erc20Balances.once_of_run hr, fun _ _ hr => Erc20Assets.once_of_run hr⟩

section Example

/-- The allowances after setting one. -/
def setAllowance (l : ℕ → H160 → H160 → U128) (id : ℕ) (owner delegate : H160) (n : U128) :
    ℕ → H160 → H160 → U128 :=
  fun id' o d => if (id', o, d) = (id, owner, delegate) then n else l id' o d

/-- An assets pallet of which only the approvals are kept, for assets that all exist. -/
def exampleAssets : Erc20Assets.PalletAssets ℕ H160 (ℕ → H160 → H160 → U128) String
    (2 ^ 128 - 1) where
  maybeTotalSupply _ _ := some 0
  name _ _ := []
  allowance l := l
  approveTransfer owner id delegate n l :=
    .ok (setAllowance l id owner delegate ((l id owner delegate).saturatingAdd n))
  cancelApproval owner id delegate l := .ok (setAllowance l id owner delegate 0)
  transfer _ _ _ _ l := .ok l
  transferApproved _ _ _ _ _ l := .ok l
  approveTransfer_self := by
    rintro owner id delegate n l _ ⟨⟩
    exact if_pos rfl
  approveTransfer_other := by
    rintro owner id delegate n l _ ⟨⟩ id' o d hne
    exact if_neg hne
  cancelApproval_self := by
    rintro owner id delegate l _ ⟨⟩
    exact if_pos rfl
  cancelApproval_other := by
    rintro owner id delegate l _ ⟨⟩ id' o d hne
    exact if_neg hne

/-- Addresses that start with `0xff` stand for the asset of their last byte. -/
def exampleConfig : Erc20Assets.Config FreeDigest ℕ H160 (ℕ → H160 → H160 → U128) String Unit
    (2 ^ 128 - 1) where
  toRuntime := Mock.runtime
  pallet := exampleAssets
  accountToAssetId a := if a[0] = 255 then some ([255], a[19].toNat) else none
  toString := Nat.repr
  debug := id

/-- The contract of the asset 7. -/
def exampleContract : H160 := (Vector.replicate 19 255).push 7

/-- A permit of `alith` for `bob`. -/
def examplePermit (value : U256) (n : UInt8) : Erc20Assets.Request :=
  .permit Mock.alith Mock.bob value 0 (Mock.signature Mock.alith n)

def exampleHistory : List (Event (Erc20Assets.State FreeDigest (ℕ → H160 → H160 → U128))
    (Erc20Assets.Op (ℕ → H160 → H160 → U128) Unit) (Option (Outcome PrecompileFailure Unit))) ×
    Erc20Assets.State FreeDigest (ℕ → H160 → H160 → U128) :=
  let handle : Erc20Assets.Handle := ⟨Mock.context Mock.bob exampleContract, exampleContract⟩
  (Erc20Assets.machine exampleConfig).replay [] ⟨fun _ _ => 0, fun _ _ _ => 0, 0, []⟩
    [.call handle () (examplePermit (.lit 5) 0), .call handle () (examplePermit (.lit 9) 1)]

/-- One instance, at the address of the precompile. -/
def exampleInstalled (a : H160) : Option Unit := if a = Mock.precompile then some () else none

def exampleTokens (_ : Unit) : Erc20Balances.Token H160 Erc20Balances.ExampleLedger (2 ^ 128 - 1) :=
  Erc20Balances.exampleToken

def exampleBalances : List (Event
      (Unit → Erc20Balances.State FreeDigest H160 Erc20Balances.ExampleLedger (2 ^ 128 - 1))
      (Erc20Balances.SetOp Unit (fun _ => Erc20Balances.ExampleLedger) Unit)
      (Outcome PrecompileFailure Unit)) ×
    (Unit → Erc20Balances.State FreeDigest H160 Erc20Balances.ExampleLedger (2 ^ 128 - 1)) :=
  let ctx := Mock.context Mock.bob Mock.precompile
  (Erc20Balances.setMachine Mock.runtime exampleTokens).replay []
    (fun _ => Erc20Balances.exampleGenesis)
    [.on () (.call ctx () (.permit Mock.alith Mock.bob (.lit 5) 0 (Mock.signature Mock.alith 0))),
      .on () (.call ctx () (.permit Mock.alith Mock.bob (.lit 9) 0 (Mock.signature Mock.alith 1)))]

theorem permits_once_twice :
    ((exampleBalances.2 ()).nonces Mock.alith = .lit 2 ∧
      ((Erc20Balances.permits Mock.runtime exampleTokens exampleInstalled).digests
        exampleBalances.1).length = 2 ∧
      ((Erc20Balances.permits Mock.runtime exampleTokens exampleInstalled).digests
        exampleBalances.1).Nodup) ∧
    (exampleHistory.2.nonces exampleContract Mock.alith = .lit 2 ∧
      exampleHistory.2.assets 7 Mock.alith Mock.bob = .lit 9 ∧
      ((Erc20Assets.permits exampleConfig).digests exampleHistory.1).length = 2 ∧
      ((Erc20Assets.permits exampleConfig).digests exampleHistory.1).Nodup) := by
  have hbalances : (Erc20Balances.setMachine Mock.runtime exampleTokens).Run
      (fun _ _ op => Erc20Balances.Reaches exampleInstalled op) exampleBalances.1
      exampleBalances.2 :=
    Machine.run_replay _ (.start fun _ => ⟨fun _ _ => rfl, fun _ => rfl⟩) ⟨rfl, rfl, trivial⟩
  have hassets : (Erc20Assets.machine exampleConfig).Run (fun _ _ _ => True) exampleHistory.1
      exampleHistory.2 := Machine.run_replay_all _ (.start fun _ _ => rfl)
  obtain ⟨hb, ha⟩ := permits_once Mock.runtime exampleTokens exampleInstalled exampleConfig
  exact ⟨⟨by decide +kernel, rfl, (hb _ _ hbalances).nodup⟩,
    by decide +kernel, by decide +kernel, rfl, (ha _ _ hassets).nodup⟩

end Example

end Eip2612

end Moonkit
