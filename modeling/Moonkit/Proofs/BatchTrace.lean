import Moonkit.Batch

/-!
# What a batch does

What is tried for an entry does not depend on the mode, only what follows from it does
(`processEntry_eq`). So the modes do the same up to and including the first entry that does not
succeed (`batchLoop_eq`), where two of them end. What a batch did is read off a handle that records
it: the subcalls and the logs, each with the gas there was. Recording them changes nothing
(`innerBatch_projects`).
-/

namespace Moonkit

namespace Batch

open Precompile

section Attempts

/-- What came of an entry: not the gas for its log, not the gas for its subcall, or the subcall. -/
inductive Attempt where
  | short
  | unpaid
  | called (reason : ExitReason) (output : List UInt8)

def Attempt.succeeded : Attempt → Bool
  | called .succeed _ => true
  | _ => false

variable {H : Type} (cfg : Config) (hd : Handle H)

def attemptCall (e : Entry) (forwardedGas : U64) : Call H PrecompileFailure Attempt := do
  let (reason, output) ← handleCall hd (subCall hd e forwardedGas)
  logReason hd e.index reason
  pure (.called reason output)

def attemptUnpaid (e : Entry) : Call H PrecompileFailure Attempt := do
  emit hd (logSubcallFailed hd.codeAddress e.index)
  pure .unpaid

/-- The part of the loop's body that does not depend on the mode. -/
def attempt (logCost : U64) (e : Entry) : Call H PrecompileFailure Attempt := do
  let h ← Call.get
  match (hd.remainingGas h).checkedSub logCost with
  | none => pure .short
  | some remaining =>
    match remaining.checkedSub (cfg.callCost e.value) with
    | none => attemptUnpaid hd e
    | some forwardedGas =>
      match e.gasLimit with
      | none => attemptCall hd e forwardedGas
      | some limit =>
        if forwardedGas < limit then attemptUnpaid hd e else attemptCall hd e limit

/-- What follows from an attempt. -/
def settle (mode : Mode) : Attempt → Call H PrecompileFailure Flow
  | .short => if mode = .batchAll then Call.err (.error .outOfGas) else pure .stop
  | .unpaid => outOfGas mode
  | .called reason output => proceed output mode reason

variable {cfg hd} {mode : Mode} {logCost : U64} {e : Entry}

theorem callEntry_eq (gas : U64) :
    callEntry hd mode e gas = attemptCall hd e gas >>= settle mode := by
  unfold callEntry attemptCall
  rw [Call.bind_assoc]
  refine congrArg (handleCall hd (subCall hd e gas) >>= ·) (funext fun r => ?_)
  obtain ⟨reason, output⟩ := r
  simp only [Call.bind_assoc, Call.bind_pure_left, settle]

theorem emit_outOfGas_eq :
    (emit hd (logSubcallFailed hd.codeAddress e.index) >>= fun _ => outOfGas mode)
      = attemptUnpaid hd e >>= settle mode := by
  simp only [attemptUnpaid, Call.bind_assoc, Call.bind_pure_left, settle]

theorem processEntry_eq :
    processEntry cfg hd mode logCost e = attempt cfg hd logCost e >>= settle mode := by
  funext h
  unfold processEntry attempt
  rw [Call.bind_assoc]
  simp only [Call.get_bind]
  rcases (hd.remainingGas h).checkedSub logCost with _ | remaining
  · cases mode <;> rfl
  simp only
  rcases remaining.checkedSub (cfg.callCost e.value) with _ | forwarded
  · exact congrFun emit_outOfGas_eq h
  simp only
  rcases e.gasLimit with _ | limit
  · exact congrFun (callEntry_eq forwarded) h
  simp only
  split_ifs
  · exact congrFun emit_outOfGas_eq h
  · exact congrFun (callEntry_eq limit) h

end Attempts

section Modes

variable {H : Type} (cfg : Config) (hd : Handle H)

/-- The entries one after the other, up to and including the first that does not succeed: what came
of it, and the entries after it. -/
def upToFailure (logCost : U64) :
    List Entry → Call H PrecompileFailure (Option Attempt × List Entry)
  | [] => pure (none, [])
  | e :: es => do
    let a ← attempt cfg hd logCost e
    if a.succeeded then upToFailure logCost es else pure (some a, es)

/-- How a mode goes on from there. -/
def finish (mode : Mode) (logCost : U64) :
    Option Attempt × List Entry → Call H PrecompileFailure Unit
  | (none, _) => pure ()
  | (some a, rest) => do
    match ← settle mode a with
    | .next => batchLoop cfg hd mode logCost rest
    | .stop => pure ()

variable {cfg hd} {mode : Mode} {logCost : U64}

theorem finish_next {a : Attempt} {rest : List Entry}
    (hs : (settle mode a : Call H PrecompileFailure Flow) = pure .next) :
    finish cfg hd mode logCost (some a, rest) = batchLoop cfg hd mode logCost rest := by
  simp only [finish, hs, Call.bind_pure_left]

theorem finish_stop {a : Attempt} {rest : List Entry}
    (hs : (settle mode a : Call H PrecompileFailure Flow) = pure .stop) :
    finish cfg hd mode logCost (some a, rest) = pure () := by
  simp only [finish, hs, Call.bind_pure_left]

theorem finish_err {a : Attempt} {rest : List Entry} {f : PrecompileFailure}
    (hs : (settle mode a : Call H PrecompileFailure Flow) = Call.err f) :
    finish cfg hd mode logCost (some a, rest) = Call.err f := by
  simp only [finish, hs, Call.bind_err_left]

/-- One entry of the loop, and what is left to the loop after it. -/
theorem batchLoop_cons (e : Entry) (es : List Entry) :
    batchLoop cfg hd mode logCost (e :: es)
      = attempt cfg hd logCost e >>= fun a => finish cfg hd mode logCost (some a, es) := by
  rw [batchLoop, processEntry_eq, Call.bind_assoc]
  rfl

theorem settle_of_succeeded {a : Attempt} (ha : a.succeeded = true) :
    (settle mode a : Call H PrecompileFailure Flow) = pure .next := by
  rcases a with _ | _ | ⟨reason, output⟩
  · simp [Attempt.succeeded] at ha
  · simp [Attempt.succeeded] at ha
  cases reason with
  | succeed => cases mode <;> rfl
  | _ => simp [Attempt.succeeded] at ha

/-- The modes do the same up to the first entry that does not succeed. -/
theorem batchLoop_eq : ∀ es : List Entry, batchLoop cfg hd mode logCost es
      = upToFailure cfg hd logCost es >>= finish cfg hd mode logCost
  | [] => rfl
  | e :: es => by
    rw [batchLoop_cons, upToFailure, Call.bind_assoc]
    refine congrArg (attempt cfg hd logCost e >>= ·) (funext fun a => ?_)
    by_cases ha : a.succeeded = true
    · rw [if_pos ha, finish_next (settle_of_succeeded ha)]
      exact batchLoop_eq es
    · rw [if_neg ha, Call.bind_pure_left]

/-- `batchAll` fails after an entry that did not succeed, and does nothing more. -/
theorem settle_batchAll {a : Attempt} (ha : a.succeeded = false) :
    ∃ f, (settle .batchAll a : Call H PrecompileFailure Flow) = Call.err f := by
  rcases a with _ | _ | ⟨reason, output⟩
  · exact ⟨_, rfl⟩
  · exact ⟨_, rfl⟩
  cases reason with
  | succeed => simp [Attempt.succeeded] at ha
  | _ => exact ⟨_, rfl⟩

/-- `batchSomeUntilFailure` stops after an entry that did not succeed, or fails. -/
theorem settle_batchSomeUntilFailure {a : Attempt} (ha : a.succeeded = false) :
    (settle .batchSomeUntilFailure a : Call H PrecompileFailure Flow) = pure .stop ∨
      ∃ f, (settle .batchSomeUntilFailure a : Call H PrecompileFailure Flow) = Call.err f := by
  rcases a with _ | _ | ⟨reason, output⟩
  · exact .inl rfl
  · exact .inl rfl
  cases reason with
  | succeed => simp [Attempt.succeeded] at ha
  | fatal f => exact .inr ⟨_, rfl⟩
  | _ => exact .inl rfl

theorem upToFailure_some : ∀ {es rest : List Entry} {a : Attempt} {h h' : H},
    upToFailure cfg hd logCost es h = (.ok (some a, rest), h') → a.succeeded = false
  | [], rest, a, h, h', hrun => by
    simp [upToFailure] at hrun
  | e :: es, rest, a, h, h', hrun => by
    obtain ⟨b, h₁, -, hrun⟩ := Call.bind_eq_ok.1 hrun
    split_ifs at hrun with hb
    · exact upToFailure_some hrun
    · simp only [Call.pure_apply, Prod.mk.injEq, Outcome.ok.injEq, Option.some.injEq] at hrun
      rw [← hrun.1.1]
      exact Bool.not_eq_true _ ▸ hb

theorem snd_finish {es : List Entry} {r : Option Attempt × List Entry} {h h' : H}
    (hrun : upToFailure cfg hd logCost es h = (.ok r, h')) (hmode : mode ≠ .batchSome) :
    (finish cfg hd mode logCost r h').2 = h' := by
  obtain ⟨_ | a, rest⟩ := r
  · rfl
  have ha := upToFailure_some hrun
  cases mode with
  | batchSome => exact absurd rfl hmode
  | batchAll =>
    obtain ⟨f, hf⟩ := settle_batchAll (H := H) ha
    rw [finish_err hf]
    rfl
  | batchSomeUntilFailure =>
    rcases settle_batchSomeUntilFailure (H := H) ha with hf | ⟨f, hf⟩
    · rw [finish_stop hf]
      rfl
    · rw [finish_err hf]
      rfl

end Modes

section Traces

/-- A subcall of the batch, a log it paid for or one it emitted, with the gas there was before. -/
inductive Step where
  | called (gas : U64) (sub : SubCall) (reason : ExitReason)
  | charged (gas : U64) (log : SubcallLog)
  | logged (gas : U64) (log : SubcallLog)

def Step.log? : Step → Option SubcallLog
  | logged _ log => some log
  | _ => none

variable {H : Type}

/-- The handle, with what was done with it. -/
def Handle.recorded (hd : Handle H) : Handle (H × List Step) where
  caller := hd.caller
  codeAddress := hd.codeAddress
  remainingGas p := hd.remainingGas p.1
  recordLogCosts log p :=
    (hd.recordLogCosts log p.1).map fun h => (h, p.2 ++ [.charged (hd.remainingGas p.1) log])
  log log p :=
    (hd.log log p.1).map fun h => (h, p.2 ++ [.logged (hd.remainingGas p.1) log])
  call sub p :=
    let r := hd.call sub p.1
    (r.1, r.2, p.2 ++ [.called (hd.remainingGas p.1) sub r.1.1])

variable (cfg : Config) (hd : Handle H) (logCost : U64)

/-- From the gas `g` the log and the subcall with the gas `gas` can be paid: `gas` is the limit of
the entry, or all there is beyond the costs. -/
def Pays (e : Entry) (g gas : U64) : Prop :=
  match e.gasLimit with
  | some limit => gas = limit ∧ logCost.val + (cfg.callCost e.value).val + limit.val ≤ g.val
  | none => logCost.val + (cfg.callCost e.value).val + gas.val = g.val

/-- The gas `g` is enough for the log, but not for the subcall. -/
def CannotPay (e : Entry) (g : U64) : Prop :=
  logCost.val ≤ g.val ∧
    g.val < logCost.val + (cfg.callCost e.value).val + e.gasLimit.elim 0 Uint.val

def outcomeLog (index : ℕ) : ExitReason → Option SubcallLog
  | .succeed => some (logSubcallSucceeded hd.codeAddress index)
  | .error _ => some (logSubcallFailed hd.codeAddress index)
  | .revert => some (logSubcallFailed hd.codeAddress index)
  | .fatal _ => none

/-- The steps for an entry that was processed: its subcall, where there is the gas for it, and the
one log of what came of it. -/
inductive Handled (e : Entry) : Attempt → List Step → Prop
  | unpaid {g g' : U64} : CannotPay cfg logCost e g →
      Handled e .unpaid [.charged g (logSubcallFailed hd.codeAddress e.index),
        .logged g' (logSubcallFailed hd.codeAddress e.index)]
  | called {g g₁ g₂ gas : U64} {reason : ExitReason} {output : List UInt8} {log : SubcallLog} :
      Pays cfg logCost e g gas → outcomeLog hd e.index reason = some log →
      Handled e (.called reason output)
        [.called g (subCall hd e gas) reason, .charged g₁ log, .logged g₂ log]

/-- What an attempt comes to, with its steps and the gas it leaves. -/
inductive Tried (e : Entry) (gas : U64) : Outcome PrecompileFailure Attempt → List Step → Prop
  | handled {a : Attempt} {d : List Step} : Handled cfg hd logCost e a d → Tried e gas (.ok a) d
  | short : gas < logCost → Tried e gas (.ok .short) []
  | fatal {g g' : U64} {f : String} {output : List UInt8} : Pays cfg logCost e g g' →
      Tried e gas (.ok (.called (.fatal f) output)) [.called g (subCall hd e g') (.fatal f)]
  -- the log could not be paid or emitted
  | unlogged {f : PrecompileFailure} {d : List Step} :
      d.filterMap Step.log? = [] → Tried e gas (.err f) d

variable {cfg hd logCost} {e : Entry} {h : H} {t : List Step}

/-- A log is paid and emitted, or it is not and the batch fails. -/
theorem emit_recorded (hd : Handle H) (h : H) (t : List Step) (log : SubcallLog) :
    (∃ h' g, emit hd.recorded log (h, t)
      = (.ok (), h', t ++ [.charged (hd.remainingGas h) log, .logged g log])) ∨
    ∃ x h' d, emit hd.recorded log (h, t) = (.err x, h', t ++ d) ∧ d.filterMap Step.log? = [] := by
  unfold emit
  rcases hc : hd.recordLogCosts log h with x | h₁
  · have hlift : lift (hd.recorded.recordLogCosts log) (h, t) = (.err (.error x), h, t ++ []) := by
      simp only [lift, Handle.recorded, hc, Except.map, List.append_nil]
    exact .inr ⟨_, _, [], Call.bind_err hlift, rfl⟩
  have hlift : lift (hd.recorded.recordLogCosts log) (h, t)
      = (.ok (), h₁, t ++ [.charged (hd.remainingGas h) log]) := by
    simp only [lift, Handle.recorded, hc, Except.map]
  rw [Call.bind_ok hlift]
  rcases hl : hd.log log h₁ with x | h₂
  · refine .inr ⟨.error x, h₁, [.charged (hd.remainingGas h) log], ?_, rfl⟩
    simp only [lift, Handle.recorded, hl, Except.map]
  · refine .inl ⟨h₂, hd.remainingGas h₁, ?_⟩
    simp only [lift, Handle.recorded, hl, Except.map, List.append_assoc, List.cons_append,
      List.nil_append]

theorem attemptUnpaid_tried (hg : CannotPay cfg logCost e (hd.remainingGas h)) :
    ∃ r h' d, attemptUnpaid hd.recorded e (h, t) = (r, h', t ++ d) ∧
      Tried cfg hd logCost e (hd.remainingGas h') r d := by
  unfold attemptUnpaid
  rcases emit_recorded hd h t (logSubcallFailed hd.codeAddress e.index) with
    ⟨h', g, hok⟩ | ⟨x, h', d, herr, hd'⟩
  · exact ⟨_, h', _, Call.bind_ok hok, .handled (.unpaid hg)⟩
  · exact ⟨_, h', d, Call.bind_err herr, .unlogged hd'⟩

theorem logReason_eq (hd : Handle H) (index : ℕ) (reason : ExitReason) :
    (∃ log, outcomeLog hd index reason = some log ∧
      logReason hd.recorded index reason = emit hd.recorded log) ∨
    ∃ f, reason = .fatal f ∧ logReason hd.recorded index reason = pure () := by
  cases reason with
  | succeed => exact .inl ⟨_, rfl, rfl⟩
  | error x => exact .inl ⟨_, rfl, rfl⟩
  | revert => exact .inl ⟨_, rfl, rfl⟩
  | fatal f => exact .inr ⟨f, rfl, rfl⟩

theorem attemptCall_tried {gas : U64} (hg : Pays cfg logCost e (hd.remainingGas h) gas) :
    ∃ r h' d, attemptCall hd.recorded e gas (h, t) = (r, h', t ++ d) ∧
      Tried cfg hd logCost e (hd.remainingGas h') r d := by
  unfold attemptCall
  rcases hr : hd.call (subCall hd e gas) h with ⟨⟨reason, output⟩, h₁⟩
  have hcall : handleCall hd.recorded (subCall hd.recorded e gas) (h, t)
      = (.ok (reason, output), h₁,
        t ++ [.called (hd.remainingGas h) (subCall hd e gas) reason]) := by
    show (Outcome.ok (hd.call (subCall hd e gas) h).1, (hd.call (subCall hd e gas) h).2,
      t ++ [Step.called (hd.remainingGas h) (subCall hd e gas)
        (hd.call (subCall hd e gas) h).1.1]) = _
    rw [hr]
  rw [Call.bind_ok hcall]
  simp only
  rcases logReason_eq hd e.index reason with ⟨log, hlog, heq⟩ | ⟨f, rfl, heq⟩
  · rw [heq]
    rcases emit_recorded hd h₁ (t ++ [.called (hd.remainingGas h) (subCall hd e gas) reason]) log
      with ⟨h', g, hok⟩ | ⟨x, h', d, herr, hd'⟩
    · rw [List.append_assoc] at hok
      exact ⟨_, h', _, Call.bind_ok hok, .handled (.called hg hlog)⟩
    · rw [List.append_assoc] at herr
      exact ⟨_, h', _, Call.bind_err herr, .unlogged hd'⟩
  · rw [heq]
    exact ⟨_, h₁, _, rfl, .fatal hg⟩

theorem attempt_tried (cfg : Config) (hd : Handle H) (logCost : U64) (e : Entry) (h : H)
    (t : List Step) :
    ∃ r h' d, attempt cfg hd.recorded logCost e (h, t) = (r, h', t ++ d) ∧
      Tried cfg hd logCost e (hd.remainingGas h') r d := by
  unfold attempt
  rw [Call.get_bind]
  have hgas : hd.recorded.remainingGas (h, t) = hd.remainingGas h := rfl
  rw [hgas]
  rcases hlog : (hd.remainingGas h).checkedSub logCost with _ | remaining
  · have hshort := Uint.checkedSub_eq_none.1 hlog
    exact ⟨_, h, [], by rw [List.append_nil]; rfl, .short hshort⟩
  have hremaining := Uint.checkedSub_eq_some.1 hlog
  simp only
  rcases hcall : remaining.checkedSub (cfg.callCost e.value) with _ | forwarded
  · have hshort := Uint.checkedSub_eq_none.1 hcall
    exact attemptUnpaid_tried ⟨by omega, by omega⟩
  have hforwarded := Uint.checkedSub_eq_some.1 hcall
  simp only
  rcases hlimit : e.gasLimit with _ | limit
  · exact attemptCall_tried (by simp only [Pays, hlimit]; omega)
  simp only
  split_ifs with hlt
  · rw [Uint.lt_iff_val] at hlt
    refine attemptUnpaid_tried ⟨by omega, ?_⟩
    rw [hlimit, Option.elim_some]
    omega
  · rw [Uint.lt_iff_val] at hlt
    exact attemptCall_tried (by simp only [Pays, hlimit, true_and]; omega)

end Traces

section Recorded

variable {H : Type} {cfg : Config} {hd : Handle H} {mode : Mode} {logCost : U64}

open Call

theorem lift_projects {f : H × List Step → Except ExitError (H × List Step)}
    {g : H → Except ExitError H} (hf : ∀ p, g p.1 = (f p).map Prod.fst) :
    Projects Prod.fst (lift f) (lift g) := by
  intro p
  simp only [lift, hf p]
  rcases f p with x | q <;> rfl

theorem emit_projects (log : SubcallLog) :
    Projects Prod.fst (emit hd.recorded log) (emit hd log) := by
  refine .bind (lift_projects fun p => ?_) fun _ => lift_projects fun p => ?_
  · simp only [Handle.recorded]
    rcases hd.recordLogCosts log p.1 with x | h <;> rfl
  · simp only [Handle.recorded]
    rcases hd.log log p.1 with x | h <;> rfl

theorem logReason_projects (index : ℕ) (reason : ExitReason) :
    Projects Prod.fst (logReason hd.recorded index reason) (logReason hd index reason) := by
  cases reason with
  | fatal f => exact .pure ()
  | _ => exact emit_projects _

theorem attemptCall_projects (e : Entry) (gas : U64) :
    Projects Prod.fst (attemptCall hd.recorded e gas) (attemptCall hd e gas) :=
  .bind (fun _ => rfl) fun _ => .bind (logReason_projects _ _) fun _ => .pure _

theorem attemptUnpaid_projects (e : Entry) :
    Projects Prod.fst (attemptUnpaid hd.recorded e) (attemptUnpaid hd e) :=
  .bind (emit_projects _) fun _ => .pure _

theorem attempt_projects (e : Entry) :
    Projects Prod.fst (attempt cfg hd.recorded logCost e) (attempt cfg hd logCost e) := by
  intro p
  unfold attempt
  rw [get_bind, get_bind]
  have hgas : hd.recorded.remainingGas p = hd.remainingGas p.1 := rfl
  rw [hgas]
  rcases (hd.remainingGas p.1).checkedSub logCost with _ | remaining
  · rfl
  simp only
  rcases remaining.checkedSub (cfg.callCost e.value) with _ | forwarded
  · exact attemptUnpaid_projects e p
  simp only
  rcases e.gasLimit with _ | limit
  · exact attemptCall_projects e forwarded p
  simp only
  split_ifs
  · exact attemptUnpaid_projects e p
  · exact attemptCall_projects e limit p

theorem settle_projects (a : Attempt) :
    Projects Prod.fst (settle mode a : Call (H × List Step) PrecompileFailure Flow)
      (settle mode a) := by
  intro p
  rcases a with _ | _ | ⟨reason, output⟩
  · cases mode <;> rfl
  · cases mode <;> rfl
  · cases mode <;> cases reason <;> rfl

theorem batchLoop_projects : ∀ es : List Entry,
    Projects Prod.fst (batchLoop cfg hd.recorded mode logCost es) (batchLoop cfg hd mode logCost es)
  | [] => .pure ()
  | e :: es => by
    rw [batchLoop, batchLoop, processEntry_eq, processEntry_eq]
    refine .bind (.bind (attempt_projects e) settle_projects) fun flow => ?_
    cases flow with
    | next => exact batchLoop_projects es
    | stop => exact .pure ()

/-- Recording what is done changes nothing of it. -/
theorem innerBatch_projects (to_ : List H160) (value : List U256) (callData : List (List UInt8))
    (gasLimit : List U64) :
    Projects Prod.fst (innerBatch cfg hd.recorded mode to_ value callData gasLimit)
      (innerBatch cfg hd mode to_ value callData gasLimit) :=
  .bind (.okOr _ _) fun _ => batchLoop_projects _

end Recorded

end Batch

end Moonkit
