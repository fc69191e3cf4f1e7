import Moonkit.Proofs.BatchModes

/-!
# The gas of a batch

Before each subcall the cost of its log is set aside, so where a subcall consumes at most its own
cost and the gas it is given, that much is left for the log after it (`GasRules.left`). Every entry
that is reached is then accounted for, and a batch fails exactly with what its mode makes of the
attempt at an entry it reached (`batchLoop_ends`, `Reached.fails`).
-/

namespace Moonkit

namespace Batch

open Precompile

variable {H : Type} (cfg : Config) (hd : Handle H) (logCost : U64)

/-- What the batch assumes of gas: its logs all cost the same, are charged where there is the gas
for them and then emitted, and a subcall consumes at most its own cost and the gas it is given. -/
structure GasRules : Prop where
  cost : ∀ event index, cfg.computeCost ⟨hd.codeAddress, event, index⟩ = some logCost
  charges : ∀ event index h, logCost ≤ hd.remainingGas h →
    ∃ h', hd.recordLogCosts ⟨hd.codeAddress, event, index⟩ h = .ok h'
  logs : ∀ event index h, ∃ h', hd.log ⟨hd.codeAddress, event, index⟩ h = .ok h'
  consumes : ∀ sub gas h, sub.targetGas = some gas → (hd.remainingGas h).val ≤
    (hd.remainingGas (hd.call sub h).2).val + (cfg.callCost sub.context.apparentValue).val + gas.val

/-- The log is charged and emitted. -/
def Emits (log : SubcallLog) (h h' : H) : Prop :=
  ∃ h₁, hd.recordLogCosts log h = .ok h₁ ∧ hd.log log h₁ = .ok h'

/-- What an attempt at an entry comes to where every log is paid. -/
inductive Accounted (e : Entry) (h : H) : Attempt → H → Prop
  | short : hd.remainingGas h < logCost → Accounted e h .short h
  | unpaid {h' : H} : CannotPay cfg logCost e (hd.remainingGas h) →
      Emits hd (logSubcallFailed hd.codeAddress e.index) h h' → Accounted e h .unpaid h'
  | called {gas : U64} {reason : ExitReason} {output : List UInt8} {log : SubcallLog} {h₁ h' : H} :
      Pays cfg logCost e (hd.remainingGas h) gas →
      hd.call (subCall hd e gas) h = ((reason, output), h₁) →
      outcomeLog hd e.index reason = some log → Emits hd log h₁ h' →
      Accounted e h (.called reason output) h'
  | fatal {gas : U64} {f : String} {output : List UInt8} {h' : H} :
      Pays cfg logCost e (hd.remainingGas h) gas →
      hd.call (subCall hd e gas) h = ((.fatal f, output), h') →
      Accounted e h (.called (.fatal f) output) h'

/-- The failure a mode makes of an attempt. -/
def failure : Mode → Attempt → Option PrecompileFailure
  | _, .called (.fatal f) _ => some (.fatal f)
  | .batchAll, .called .revert output => some (.revert (.bytes output))
  | .batchAll, .called (.error e) _ => some (.error e)
  | .batchAll, .short => some (.error .outOfGas)
  | .batchAll, .unpaid => some (.error .outOfGas)
  | _, _ => none

/-- The loop over the entries from `h` on comes to this entry, in this state. -/
inductive Reached (mode : Mode) : H → List Entry → H → Entry → Prop
  | here {h : H} {e : Entry} {es : List Entry} : Reached mode h (e :: es) h e
  | later {h h₁ h₂ : H} {e e' : Entry} {es : List Entry} {a : Attempt} :
      Accounted cfg hd logCost e h a h₁ →
      (settle mode a : Call H PrecompileFailure Flow) = pure .next →
      Reached mode h₁ es h₂ e' → Reached mode h (e :: es) h₂ e'

variable {cfg hd logCost} {mode : Mode} {e : Entry} {h : H}

theorem settle_failure {a : Attempt} {f : PrecompileFailure} (ha : failure mode a = some f) :
    (settle mode a : Call H PrecompileFailure Flow) = Call.err f := by
  rcases a with _ | _ | ⟨reason, output⟩
  · cases mode <;> simp only [failure, Option.some.injEq, reduceCtorEq] at ha
    rw [← ha]
    rfl
  · cases mode <;> simp only [failure, Option.some.injEq, reduceCtorEq] at ha
    rw [← ha]
    rfl
  · cases mode <;> cases reason <;> simp only [failure, Option.some.injEq, reduceCtorEq] at ha <;>
      rw [← ha] <;> rfl

theorem settle_no_failure {a : Attempt} (ha : failure mode a = none) :
    (settle mode a : Call H PrecompileFailure Flow) = pure .next ∨
      (settle mode a : Call H PrecompileFailure Flow) = pure .stop := by
  rcases settle_cases (H := H) mode a with hs | hs | ⟨f, hs⟩
  · exact .inl hs
  · exact .inr hs
  · rcases a with _ | _ | ⟨reason, output⟩
    · cases mode <;> simp only [failure, reduceCtorEq] at ha <;> exact .inr rfl
    · cases mode <;> simp only [failure, reduceCtorEq] at ha
      · exact .inl rfl
      · exact .inr rfl
    · cases mode <;> cases reason <;> simp only [failure, reduceCtorEq] at ha <;>
        first | exact .inl rfl | exact .inr rfl

section Attempts

theorem Pays.le {g gas : U64} (hg : Pays cfg logCost e g gas) :
    logCost.val + (cfg.callCost e.value).val + gas.val ≤ g.val := by
  unfold Pays at hg
  split at hg
  · rw [hg.1]
    exact hg.2
  · exact hg.le

theorem emit_of_emits {log : SubcallLog} {h' : H} (hlog : Emits hd log h h') :
    emit hd log h = (.ok (), h') := by
  obtain ⟨h₁, hcharge, hemit⟩ := hlog
  have hpaid : lift (hd.recordLogCosts log) h = (.ok (), h₁) := by
    simp only [lift, hcharge]
  rw [emit, Call.bind_ok hpaid]
  simp only [lift, hemit]

theorem GasRules.emits (hgas : GasRules cfg hd logCost) (hpaid : logCost ≤ hd.remainingGas h)
    (event : SubcallEvent) (index : ℕ) : ∃ h', Emits hd ⟨hd.codeAddress, event, index⟩ h h' := by
  obtain ⟨h₁, hcharge⟩ := hgas.charges event index h hpaid
  obtain ⟨h', hemit⟩ := hgas.logs event index h₁
  exact ⟨h', h₁, hcharge, hemit⟩

theorem GasRules.left (hgas : GasRules cfg hd logCost) {gas : U64}
    (hg : Pays cfg logCost e (hd.remainingGas h) gas) :
    logCost ≤ hd.remainingGas (hd.call (subCall hd e gas) h).2 := by
  have hconsumes : (hd.remainingGas h).val ≤
      (hd.remainingGas (hd.call (subCall hd e gas) h).2).val + (cfg.callCost e.value).val +
        gas.val := hgas.consumes (subCall hd e gas) gas h rfl
  have hpays := hg.le
  rw [Uint.le_iff_val]
  omega

theorem attemptCall_eq {gas : U64} {reason : ExitReason} {output : List UInt8} {h₁ : H}
    (hcall : hd.call (subCall hd e gas) h = ((reason, output), h₁)) :
    attemptCall hd e gas h =
      (logReason hd e.index reason >>= fun _ => pure (.called reason output)) h₁ := by
  have hhandle : handleCall hd (subCall hd e gas) h = (.ok (reason, output), h₁) := by
    simp only [handleCall, hcall]
  unfold attemptCall
  rw [Call.bind_ok hhandle]

theorem logReason_of_emits {reason : ExitReason} {log : SubcallLog} {h' : H}
    (hlog : outcomeLog hd e.index reason = some log) (hemits : Emits hd log h h') :
    logReason hd e.index reason h = (.ok (), h') := by
  cases reason with
  | fatal f => simp [outcomeLog] at hlog
  | _ =>
    obtain rfl := Option.some.inj hlog
    exact emit_of_emits hemits

theorem attempt_of_pays {gas : U64} (hg : Pays cfg logCost e (hd.remainingGas h) gas) :
    attempt cfg hd logCost e h = attemptCall hd e gas h := by
  have hle := hg.le
  unfold attempt
  rw [Call.get_bind]
  rcases hlog : (hd.remainingGas h).checkedSub logCost with _ | remaining
  · have hshort := Uint.checkedSub_eq_none.1 hlog
    omega
  have hremaining := Uint.checkedSub_eq_some.1 hlog
  simp only
  rcases hcall : remaining.checkedSub (cfg.callCost e.value) with _ | forwarded
  · have hshort := Uint.checkedSub_eq_none.1 hcall
    omega
  have hforwarded := Uint.checkedSub_eq_some.1 hcall
  rcases hlimit : e.gasLimit with _ | limit
  · simp only [Pays, hlimit] at hg
    obtain rfl : forwarded = gas := Uint.ext_val (by omega)
    rfl
  · simp only [Pays, hlimit] at hg
    obtain ⟨rfl, hg⟩ := hg
    have hlt : ¬ forwarded < gas := by
      rw [Uint.lt_iff_val]
      omega
    simp only [if_neg hlt]

theorem attempt_of_cannotPay (hg : CannotPay cfg logCost e (hd.remainingGas h)) :
    attempt cfg hd logCost e h = attemptUnpaid hd e h := by
  obtain ⟨hpaid, hg⟩ := hg
  unfold attempt
  rw [Call.get_bind]
  rcases hlog : (hd.remainingGas h).checkedSub logCost with _ | remaining
  · have hshort := Uint.checkedSub_eq_none.1 hlog
    omega
  have hremaining := Uint.checkedSub_eq_some.1 hlog
  simp only
  rcases hcall : remaining.checkedSub (cfg.callCost e.value) with _ | forwarded
  · rfl
  have hforwarded := Uint.checkedSub_eq_some.1 hcall
  rcases hlimit : e.gasLimit with _ | limit
  · rw [hlimit, Option.elim_none] at hg
    omega
  · rw [hlimit, Option.elim_some] at hg
    have hlt : forwarded < limit := by
      rw [Uint.lt_iff_val]
      omega
    simp only [if_pos hlt]

/-- What is accounted for an attempt is what it does. -/
theorem Accounted.attempt_eq {a : Attempt} {h' : H} (ha : Accounted cfg hd logCost e h a h') :
    attempt cfg hd logCost e h = (.ok a, h') := by
  cases ha with
  | short hshort =>
    have hnone := Uint.checkedSub_eq_none.2 (Uint.lt_iff_val.1 hshort)
    unfold attempt
    rw [Call.get_bind, hnone]
    rfl
  | unpaid hg hemits =>
    rw [attempt_of_cannotPay hg]
    exact Call.bind_ok (emit_of_emits hemits)
  | called hg hcall hlog hemits =>
    rw [attempt_of_pays hg, attemptCall_eq hcall]
    exact Call.bind_ok (logReason_of_emits hlog hemits)
  | fatal hg hcall =>
    rw [attempt_of_pays hg, attemptCall_eq hcall]
    rfl

/-- The gas is enough for the subcall of an entry, or only for its log, or not even for that. -/
theorem pays_cases (cfg : Config) (logCost : U64) (e : Entry) (g : U64) :
    g < logCost ∨ CannotPay cfg logCost e g ∨ ∃ gas, Pays cfg logCost e g gas := by
  by_cases hshort : g < logCost
  · exact .inl hshort
  rw [Uint.lt_iff_val, not_lt] at hshort
  by_cases hcannot : CannotPay cfg logCost e g
  · exact .inr (.inl hcannot)
  refine .inr (.inr ?_)
  simp only [CannotPay, not_and, not_lt] at hcannot
  have hpays := hcannot hshort
  rcases hlimit : e.gasLimit with _ | limit
  · rw [hlimit, Option.elim_none] at hpays
    have hmax := g.le_max
    refine ⟨⟨g.val - (logCost.val + (cfg.callCost e.value).val), by omega⟩, ?_⟩
    simp only [Pays, hlimit]
    omega
  · rw [hlimit, Option.elim_some] at hpays
    exact ⟨limit, by simp only [Pays, hlimit, true_and]; exact hpays⟩

/-- An attempt at an entry never fails on its own bookkeeping. -/
theorem exists_accounted (hgas : GasRules cfg hd logCost) (e : Entry) (h : H) :
    ∃ a h', Accounted cfg hd logCost e h a h' := by
  rcases pays_cases cfg logCost e (hd.remainingGas h) with hshort | hcannot | ⟨gas, hg⟩
  · exact ⟨_, h, .short hshort⟩
  · obtain ⟨h', hemits⟩ := hgas.emits (Uint.le_iff_val.2 hcannot.1) .subcallFailed e.index
    exact ⟨_, h', .unpaid hcannot hemits⟩
  · have hleft := hgas.left hg
    rcases hcall : hd.call (subCall hd e gas) h with ⟨⟨reason, output⟩, h₁⟩
    rw [hcall] at hleft
    cases reason with
    | fatal f => exact ⟨_, h₁, .fatal hg hcall⟩
    | succeed =>
      obtain ⟨h', hemits⟩ := hgas.emits hleft .subcallSucceeded e.index
      exact ⟨_, h', .called hg hcall rfl hemits⟩
    | _ =>
      obtain ⟨h', hemits⟩ := hgas.emits hleft .subcallFailed e.index
      exact ⟨_, h', .called hg hcall rfl hemits⟩

/-- A limit of the entry is what its subcall gets. -/
theorem Accounted.limit {h' : H} {reason : ExitReason} {output : List UInt8} {limit : U64}
    (ha : Accounted cfg hd logCost e h (.called reason output) h') (hl : e.gasLimit = some limit) :
    (hd.call (subCall hd e limit) h).1 = (reason, output) := by
  cases ha with
  | called hg hcall _ _ =>
    simp only [Pays, hl] at hg
    rw [← hg.1, hcall]
  | fatal hg hcall =>
    simp only [Pays, hl] at hg
    rw [← hg.1, hcall]

end Attempts

section Loop

variable {es : List Entry}

theorem batchLoop_of_accounted {a : Attempt} {h₁ : H} (ha : Accounted cfg hd logCost e h a h₁) :
    batchLoop cfg hd mode logCost (e :: es) h = finish cfg hd mode logCost (some a, es) h₁ := by
  rw [batchLoop_cons, Call.bind_ok ha.attempt_eq]

/-- What a mode makes of a reached entry ends the loop. -/
theorem Reached.fails {h₁ h₂ : H} {a : Attempt} {f : PrecompileFailure}
    (hreached : Reached cfg hd logCost mode h es h₁ e) (ha : Accounted cfg hd logCost e h₁ a h₂)
    (hf : failure mode a = some f) : batchLoop cfg hd mode logCost es h = (.err f, h₂) := by
  induction hreached with
  | here =>
    rw [batchLoop_of_accounted ha, finish_err (settle_failure hf)]
    rfl
  | later hfirst hnext _ ih => rw [batchLoop_of_accounted hfirst, finish_next hnext, ih ha]

/-- The loop ends with what came of the last entry it reached. -/
theorem batchLoop_ends (hgas : GasRules cfg hd logCost) (mode : Mode) : ∀ (es : List Entry) (h : H),
    (∃ h', batchLoop cfg hd mode logCost es h = (.ok (), h')) ∨
      ∃ f h₁ e a h', batchLoop cfg hd mode logCost es h = (.err f, h') ∧
        Reached cfg hd logCost mode h es h₁ e ∧ Accounted cfg hd logCost e h₁ a h' ∧
        failure mode a = some f
  | [], h => .inl ⟨h, rfl⟩
  | e :: es, h => by
    obtain ⟨a, h₁, ha⟩ := exists_accounted hgas e h
    rw [batchLoop_of_accounted ha]
    rcases hf : failure mode a with _ | f
    · rcases settle_no_failure (H := H) hf with hs | hs
      · rw [finish_next hs]
        rcases batchLoop_ends hgas mode es h₁ with
          ⟨h', hrun⟩ | ⟨f, h₂, e', a', h', hrun, hreached, h₃⟩
        · exact .inl ⟨h', hrun⟩
        · exact .inr ⟨f, h₂, e', a', h', hrun, .later ha hs hreached, h₃⟩
      · rw [finish_stop hs]
        exact .inl ⟨h₁, rfl⟩
    · rw [finish_err (settle_failure hf)]
      exact .inr ⟨f, h, e, a, h₁, rfl, .here, ha, hf⟩

theorem failure_tolerant {a : Attempt} {f : PrecompileFailure} (hmode : mode ≠ .batchAll)
    (hf : failure mode a = some f) : ∃ s output, a = .called (.fatal s) output ∧ f = .fatal s := by
  rcases a with _ | _ | ⟨reason, output⟩
  · cases mode <;> simp [failure] at hf hmode
  · cases mode <;> simp [failure] at hf hmode
  · cases mode <;> cases reason <;> simp [failure] at hf hmode <;> exact ⟨_, _, rfl, hf.symm⟩

end Loop

section Batches

variable {to_ : List H160} {value : List U256} {callData : List (List UInt8)}
  {gasLimit : List U64}

/-- The batch comes to this entry, in this state. -/
abbrev Comes (cfg : Config) (hd : Handle H) (logCost : U64) (mode : Mode) (to_ : List H160)
    (value : List U256) (callData : List (List UInt8)) (gasLimit : List U64) (h h₁ : H)
    (e : Entry) : Prop :=
  Reached cfg hd logCost mode h (entries 0 to_ value callData gasLimit) h₁ e

theorem innerBatch_eq (hgas : GasRules cfg hd logCost) :
    innerBatch cfg hd mode to_ value callData gasLimit h =
      batchLoop cfg hd mode logCost (entries 0 to_ value callData gasLimit) h := by
  have hok : (Call.okOr (cfg.computeCost (logSubcallFailed hd.codeAddress 0))
      (revert "Failed to compute log cost") : Call H PrecompileFailure U64) h = (.ok logCost, h) :=
    Call.okOr_eq_ok.2 ⟨hgas.cost _ _, rfl⟩
  exact Call.bind_ok hok

/-- **Gas of a batch.** A batch never fails on its own bookkeeping. It answers or fails; an entry is
accounted for in every state, with the subtractions exact, the log of a subcall and of an entry that
cannot be paid charged and emitted, and a limit handed on in full; and the batch fails exactly with
what its mode makes of the attempt at an entry it comes to. The tolerant modes make a failure of a
fatal subcall alone, `batchAll` one of every attempt that does not succeed. -/
theorem batch_accounts (hgas : GasRules cfg hd logCost) (mode : Mode) (to_ : List H160)
    (value : List U256) (callData : List (List UInt8)) (gasLimit : List U64) (h : H) :
    (∃ h', innerBatch cfg hd mode to_ value callData gasLimit h = (.ok (), h') ∨
      ∃ f, innerBatch cfg hd mode to_ value callData gasLimit h = (.err f, h')) ∧
    (∀ h₁ e, ∃ a h₂,
      attempt cfg hd logCost e h₁ = (.ok a, h₂) ∧ Accounted cfg hd logCost e h₁ a h₂ ∧
      ∀ limit, e.gasLimit = some limit → ∀ reason output, a = .called reason output →
        (hd.call (subCall hd e limit) h₁).1 = (reason, output)) ∧
    (∀ f, (innerBatch cfg hd mode to_ value callData gasLimit h).1 = .err f ↔ ∃ h₁ e a h₂,
      Comes cfg hd logCost mode to_ value callData gasLimit h h₁ e ∧
        Accounted cfg hd logCost e h₁ a h₂ ∧ failure mode a = some f) ∧
    (mode ≠ .batchAll → ∀ f, (innerBatch cfg hd mode to_ value callData gasLimit h).1 = .err f →
      ∃ h₁ e s output h₂, Comes cfg hd logCost mode to_ value callData gasLimit h h₁ e ∧
        Accounted cfg hd logCost e h₁ (.called (.fatal s) output) h₂ ∧ f = .fatal s) := by
  rw [innerBatch_eq hgas]
  have hfails : ∀ f, (batchLoop cfg hd mode logCost (entries 0 to_ value callData gasLimit) h).1 =
      .err f ↔ ∃ h₁ e a h₂, Comes cfg hd logCost mode to_ value callData gasLimit h h₁ e ∧
        Accounted cfg hd logCost e h₁ a h₂ ∧ failure mode a = some f := by
    intro f
    constructor
    · intro herr
      rcases batchLoop_ends hgas mode (entries 0 to_ value callData gasLimit) h with
        ⟨h', hrun⟩ | ⟨f', h₁, e, a, h', hrun, hreached, ha, hf⟩
      · simp [hrun] at herr
      · rw [hrun] at herr
        obtain rfl := Outcome.err.inj herr
        exact ⟨h₁, e, a, h', hreached, ha, hf⟩
    · rintro ⟨h₁, e, a, h₂, hreached, ha, hf⟩
      rw [hreached.fails ha hf]
  refine ⟨?_, fun h₁ e => ?_, hfails, fun hmode f herr => ?_⟩
  · rcases batchLoop_ends hgas mode (entries 0 to_ value callData gasLimit) h with
      ⟨h', hrun⟩ | ⟨f, -, -, -, h', hrun, -⟩
    · exact ⟨h', .inl hrun⟩
    · exact ⟨h', .inr ⟨f, hrun⟩⟩
  · obtain ⟨a, h₂, ha⟩ := exists_accounted hgas e h₁
    refine ⟨a, h₂, ha.attempt_eq, ha, fun limit hl reason output hcalled => ?_⟩
    subst hcalled
    exact ha.limit hl
  · obtain ⟨h₁, e, a, h₂, hreached, ha, hf⟩ := (hfails f).1 herr
    obtain ⟨s, output, rfl, rfl⟩ := failure_tolerant hmode hf
    exact ⟨h₁, e, s, output, h₂, hreached, ha, rfl⟩

end Batches

section Spending

/-- A handle whose subcalls consume all they may, and end as `reply` says. -/
def spendingHandle (reply : H160 → ExitReason × List UInt8) : Handle U64 where
  caller := Mock.alith
  codeAddress := Mock.precompile
  remainingGas g := g
  recordLogCosts _ g := (g.checkedSub testLogCost).elim (.error .outOfGas) .ok
  log _ g := .ok g
  call sub g := (reply sub.codeAddress,
    (g.saturatingSub (testConfig.callCost sub.context.apparentValue)).saturatingSub
      (sub.targetGas.getD 0))

theorem spendingHandle_rules (reply : H160 → ExitReason × List UInt8) :
    GasRules testConfig (spendingHandle reply) testLogCost where
  cost _ _ := rfl
  charges _ _ g hpaid := by
    rcases hg : g.checkedSub testLogCost with _ | rest
    · have hshort := Uint.checkedSub_eq_none.1 hg
      have hle := Uint.le_iff_val.1 hpaid
      exact absurd hshort (not_lt_of_ge hle)
    · exact ⟨rest, by simp only [spendingHandle, hg, Option.elim_some]⟩
  logs _ _ g := ⟨g, rfl⟩
  consumes sub gas g htarget := by
    simp only [spendingHandle, htarget, Option.getD_some, Uint.saturatingSub]
    omega

/-- The subcall to `charlie` reverts, the others succeed. -/
def revertingReply (address : H160) : ExitReason × List UInt8 :=
  if address = Mock.charlie then (.revert, [1, 2]) else (.succeed, [])

theorem batch_accounts_spending :
    ∃ h', innerBatch testConfig (spendingHandle revertingReply) .batchSome testTo testValue
      testCallData [.lit 5000, .lit 7, 0] testGas = (.ok (), h') := by
  obtain ⟨⟨h', hok | ⟨f, herr⟩⟩, -, -, htolerant⟩ :=
    batch_accounts (spendingHandle_rules revertingReply) .batchSome testTo testValue testCallData
      [.lit 5000, .lit 7, 0] testGas
  · exact ⟨h', hok⟩
  · obtain ⟨h₁, e, s, output, h₂, -, ha, -⟩ := htolerant (by decide) f (congrArg Prod.fst herr)
    have hreply (address : H160) : (revertingReply address).1 ≠ .fatal s := by
      unfold revertingReply
      split_ifs <;> simp
    cases ha with
    | called _ _ hlog _ => simp [outcomeLog] at hlog
    | fatal _ hcall => exact absurd (congrArg (fun r => r.1.1) hcall) (hreply _)

/-- The only subcall ends fatally. -/
theorem batchAll_fails_fatally :
    GasRules testConfig (spendingHandle fun _ => (.fatal "UnhandledInterrupt", [])) testLogCost ∧
      ∃ f, (innerBatch testConfig (spendingHandle fun _ => (.fatal "UnhandledInterrupt", []))
          .batchAll [Mock.bob] [] [] [] testGas).1 = .err f ∧
        (∀ x, f ≠ .error x) ∧ ∀ output, f ≠ .revert output :=
  ⟨spendingHandle_rules _, .fatal "UnhandledInterrupt", by decide +kernel, by simp, by simp⟩

end Spending

end Batch

end Moonkit
