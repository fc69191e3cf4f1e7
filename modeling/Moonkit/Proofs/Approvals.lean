import Moonkit.Proofs.Permits

/-!
# Approvals of the assets ERC20 precompiles

`pallet_assets` adds to an approval, ERC20 sets it. The precompile cancels what there is before it
adds, and where there is nothing the addition alone is what is asked for. So an approval that goes
through leaves the value it is given, up to the largest balance, whatever was approved and spent
before.
-/

namespace Moonkit

namespace Erc20Assets

open Precompile Machine

variable {D AssetId A L E M : Type} {max : ℕ} {cfg : Config D AssetId A L E M max}
  {s s' : State D L} {m m' : M} {assetId : AssetId}

/-- From `s` to `s'` the allowance of the spender is set to the value, and no other changes. -/
structure Sets (cfg : Config D AssetId A L E M max) (assetId : AssetId) (owner spender : A)
    (value : U256) (s s' : State D L) : Prop where
  allowance : (cfg.pallet.allowance s'.assets assetId owner spender).val = min value.val max
  others : ∀ id o d, (id, o, d) ≠ (assetId, owner, spender) →
    cfg.pallet.allowance s'.assets id o d = cfg.pallet.allowance s.assets id o d

/-- Without an allowance nothing is cancelled: the approval is the addition alone. -/
theorem approveInner_of_zero {owner spender : H160} {value : U256} {u : Unit}
    (hzero : cfg.pallet.allowance s.assets assetId (cfg.intoAccountId owner)
      (cfg.intoAccountId spender) = 0)
    (h : approveInner cfg assetId owner spender value (s, m) = (.ok u, s', m')) :
    cfg.pallet.approveTransfer (cfg.intoAccountId owner) assetId (cfg.intoAccountId spender)
      (value.saturatingInto max) s.assets = .ok s'.assets := by
  unfold approveInner at h
  obtain ⟨m₁, -, h⟩ := meter_bind_eq_ok.1 h
  rw [storage_bind, if_neg (not_not.2 hzero), Call.pure_bind_apply] at h
  obtain ⟨l, hl, heq⟩ := dispatch_eq_ok h
  obtain rfl : s' = { s with assets := l } := heq
  exact hl

/-- **Approvals set.** An approval that succeeds leaves the value it is given as the allowance, up
to the largest balance, and no other allowance changes; where there was no allowance, this is what
the addition does without a cancellation. -/
theorem approveInner_sets {owner spender : H160} {value : U256}
    (h : approveInner cfg assetId owner spender value (s, m) = (.ok (), s', m')) :
    Sets cfg assetId (cfg.intoAccountId owner) (cfg.intoAccountId spender) value s s' ∧
      (cfg.pallet.allowance s.assets assetId (cfg.intoAccountId owner) (cfg.intoAccountId spender)
          = 0 →
        cfg.pallet.approveTransfer (cfg.intoAccountId owner) assetId (cfg.intoAccountId spender)
          (value.saturatingInto max) s.assets = .ok s'.assets) := by
  obtain ⟨l, heq, hself, hother⟩ := approveInner_eq_ok h
  obtain rfl : s' = { s with assets := l } := heq
  exact ⟨⟨hself, hother⟩, fun hzero => approveInner_of_zero hzero h⟩

/-- The allowance of `alith` for `bob` at the asset 7 after two permits is nine, and it is approved
again. -/
def reapproved : Outcome PrecompileFailure Unit ×
    State FreeDigest (ℕ → H160 → H160 → U128) × Unit :=
  approveInner Eip2612.exampleConfig 7 Mock.alith Mock.bob (.lit 5) (Eip2612.exampleHistory.2, ())

theorem approveInner_sets_again :
    Eip2612.exampleHistory.2.assets 7 Mock.alith Mock.bob = .lit 9 ∧
      Sets Eip2612.exampleConfig 7 Mock.alith Mock.bob (.lit 5) Eip2612.exampleHistory.2
        reapproved.2.1 := by
  have hok : approveInner Eip2612.exampleConfig 7 Mock.alith Mock.bob (.lit 5)
      (Eip2612.exampleHistory.2, ()) = (.ok (), reapproved.2.1, ()) := rfl
  exact ⟨by decide +kernel, (approveInner_sets hok).1⟩

section Runs

/-- The owner, the spender and the value of a request that approves. -/
def Request.approval (handle : Handle) : Request → Option (H160 × H160 × U256)
  | .approve spender value => some (handle.context.caller, spender, value)
  | .permit owner spender value _ _ => some (owner, spender, value)
  | _ => none

variable [DecidableEq A]

/-- A request that approves and answers sets the allowance. -/
theorem run_sets {handle : Handle} {r : Request} {owner spender : H160} {value : U256}
    (hr : r.approval handle = some (owner, spender, value))
    (h : run cfg assetId handle r (s, m) = (.ok (), s', m')) :
    Sets cfg assetId (cfg.intoAccountId owner) (cfg.intoAccountId spender) value s s' := by
  cases r with
  | approve spender' value' =>
    simp only [Request.approval, Option.some.injEq, Prod.mk.injEq] at hr
    obtain ⟨rfl, rfl, rfl⟩ := hr
    obtain ⟨b, ⟨s₁, m₁⟩, happrove, h⟩ := Call.bind_eq_ok.1 h
    obtain ⟨-, h⟩ := Prod.mk.inj h
    obtain ⟨rfl, rfl⟩ := Prod.mk.inj h
    unfold approve at happrove
    obtain ⟨m₂, -, happrove⟩ := meter_bind_eq_ok.1 happrove
    obtain ⟨u, ⟨s₂, m₃⟩, hinner, happrove⟩ := Call.bind_eq_ok.1 happrove
    -- the log leaves the assets
    obtain ⟨u', ⟨s₃, m₄⟩, hrecord, happrove⟩ := Call.bind_eq_ok.1 happrove
    obtain ⟨-, hlast⟩ := Prod.mk.inj happrove
    obtain ⟨rfl, rfl⟩ := Prod.mk.inj hlast
    unfold record at hrecord
    obtain ⟨m₅, -, hrecord⟩ := meter_bind_eq_ok.1 hrecord
    obtain ⟨-, heq⟩ := Prod.mk.inj hrecord
    obtain ⟨rfl, rfl⟩ := Prod.mk.inj heq
    obtain ⟨l, heq, hself, hother⟩ := approveInner_eq_ok hinner
    obtain rfl : s₂ = { s with assets := l } := heq
    exact ⟨hself, hother⟩
  | permit owner' spender' value' deadline sig =>
    simp only [Request.approval, Option.some.injEq, Prod.mk.injEq] at hr
    obtain ⟨rfl, rfl, rfl⟩ := hr
    obtain ⟨-, -, -, -, hself, hother⟩ := permit_eq_ok h
    exact ⟨hself, hother⟩
  | _ => simp [Request.approval] at hr

/-- Along every run, an approval and a permit that are answered set the allowance at the asset of
their contract. -/
theorem approvals_set
    {h : List (Event (State D L) (Op L M) (Option (Outcome PrecompileFailure Unit)))}
    (hrun : (machine cfg).Run (fun _ _ _ => True) h s)
    {e : Event (State D L) (Op L M) (Option (Outcome PrecompileFailure Unit))} (he : e ∈ h)
    {handle : Handle} {gas : M} {r : Request} (hop : e.op = .call handle gas r)
    (hok : e.answer = some (.ok ())) {owner spender : H160} {value : U256}
    (hr : r.approval handle = some (owner, spender, value)) :
    ∃ id, assetAt cfg handle.codeAddress = some id ∧
      Sets cfg id (cfg.intoAccountId owner) (cfg.intoAccountId spender) value e.before e.after := by
  obtain ⟨-, -, -, heq⟩ := hrun.mem_event he
  have hexec : call cfg handle gas r e.before = (e.answer, e.after) := by
    rw [heq, hop]
    rfl
  rcases call_cases cfg handle gas r e.before with ⟨id, ⟨s₁, m₁⟩, hasset, hcall, hans⟩ | ⟨hno, -⟩
  · rw [hans] at hexec
    obtain rfl := (Prod.mk.inj hexec).2
    exact ⟨id, hasset, run_sets hr hcall⟩
  · rw [hexec] at hno
    exact absurd hok hno

end Runs

end Erc20Assets

end Moonkit
