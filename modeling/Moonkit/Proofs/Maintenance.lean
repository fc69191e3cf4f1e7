import Moonkit.MaintenanceMode
import Moonkit.Proofs.MigrateOnce

/-!
# Maintenance mode and XCM execution

Entering maintenance mode suspends XCM execution, and so does the first `on_initialize` after an
upgrade; the `on_finalize` of that block resumes it whatever the mode is. So XCM execution stays
suspended through maintenance mode exactly in the runs where no such `on_finalize` happens in
maintenance mode.
-/

namespace Moonkit

/-- The calls of the manager never fail, and they set and clear one flag. -/
structure PauseXcmExecution.SetsFlag {X XcmError : Type} (manager : PauseXcmExecution X XcmError)
    (suspended : X → Bool) : Prop where
  suspend : ∀ x, ∃ x', manager.suspendXcmExecution x = (.ok (), x') ∧ suspended x' = true
  resume : ∀ x, ∃ x', manager.resumeXcmExecution x = (.ok (), x') ∧ suspended x' = false

namespace Migrations

variable {X DispatchError : Type} {manager : PauseXcmExecution X DispatchError}
  {s : State X DispatchError} {rest : X}

theorem performMigration_keeps_rest (availableWeight : Weight) (migration : Migration)
    (weight : Weight) : Call.Keeps State.rest
      (performMigration availableWeight migration weight : PalletCall X DispatchError Weight) := by
  refine .bind .get fun s => ?_
  split_ifs
  · exact .pure weight
  · refine .bind (.modify fun _ => rfl) fun _ => ?_
    refine .bind (.of_observes (availableForStep_observes availableWeight weight)) fun _ => ?_
    refine .bind (fun _ => rfl) fun _ => ?_
    exact .bind (.modify fun _ => rfl) fun _ => .bind (.modify fun _ => rfl) fun _ => .pure _

theorem performMigrations_keeps_rest (availableWeight : Weight) :
    ∀ (migrations : List Migration) (weight : Weight), Call.Keeps State.rest
      (performMigrations availableWeight migrations weight : PalletCall X DispatchError Weight)
  | [], weight => .pure weight
  | migration :: migrations, weight =>
    .bind (performMigration_keeps_rest availableWeight migration weight)
      (performMigrations_keeps_rest availableWeight migrations)

theorem onRuntimeUpgrade_keeps_rest (env : Env) :
    Call.Keeps State.rest (onRuntimeUpgrade env : PalletCall X DispatchError Weight) := by
  have hperform (available : Weight) : Call.Keeps State.rest
      (performRuntimeUpgrades env available : PalletCall X DispatchError Weight) := by
    refine .bind (performMigrations_keeps_rest available env.migrationsList 0) fun _ => ?_
    exact .bind (.modify fun _ => rfl) fun _ => .bind (.modify fun _ => rfl) fun _ => .pure _
  refine .bind (.modify fun _ => rfl) fun _ => .bind (.modify fun _ => rfl) fun _ => ?_
  exact .bind (.modify fun _ => rfl) fun _ => .bind (hperform _) fun _ => .pure _

theorem onRest_apply {α : Type} {x : Call X DispatchError α} {r : Outcome DispatchError α}
    (h : x s.rest = (r, rest)) : onRest x s = (r, { s with rest := rest }) :=
  Call.on_apply h

theorem onInitialize_paused (env : Env) (hp : s.shouldPauseXcm = true)
    (h : manager.suspendXcmExecution s.rest = (.ok (), rest)) :
    (onInitialize manager env s).2 = { s with rest := rest } := by
  unfold onInitialize
  rw [Call.get_bind, if_pos hp, Call.bind_ok (Call.handle_ok (onRest_apply h))]
  rfl

theorem onInitialize_unpaused (env : Env) (hp : s.shouldPauseXcm = false) :
    (onInitialize manager env s).2 = s := by
  unfold onInitialize
  rw [Call.get_bind, if_neg (by simp [hp])]
  rfl

theorem onFinalize_paused (hp : s.shouldPauseXcm = true)
    (h : manager.resumeXcmExecution s.rest = (.ok (), rest)) :
    (onFinalize manager s).2 = { s with rest := rest, shouldPauseXcm := false } := by
  unfold onFinalize
  rw [Call.get_bind, if_pos hp, Call.bind_ok (Call.handle_ok (onRest_apply h))]
  rfl

theorem onFinalize_unpaused (hp : s.shouldPauseXcm = false) : (onFinalize manager s).2 = s := by
  unfold onFinalize
  rw [Call.get_bind, if_neg (by simp [hp])]
  rfl

end Migrations

namespace MaintenanceMode

variable {Origin X XcmError : Type} {C : Config Origin X XcmError} {suspended : X → Bool}

section Calls

variable {s : State X XcmError} {rest : X}

theorem onRest_apply {α : Type} {x : Call X XcmError α} {r : Outcome XcmError α}
    (h : x s.rest = (r, rest)) : onRest x s = (r, { s with rest := rest }) :=
  Call.on_apply h

theorem doEnterMaintenanceMode_suspends (hm : C.xcmExecutionManager.SetsFlag suspended)
    (s : State X XcmError) : suspended (doEnterMaintenanceMode C s).2.rest = true := by
  obtain ⟨rest, h, hsuspended⟩ := hm.suspend s.rest
  have hrest := onRest_apply (s := { s with maintenanceMode := true }) h
  unfold doEnterMaintenanceMode
  rw [Call.modify_bind, Call.bind_ok (Call.handle_ok hrest)]
  exact hsuspended

theorem enterMaintenanceMode_cases (hm : C.xcmExecutionManager.SetsFlag suspended) (origin : Origin)
    (s : State X XcmError) : (enterMaintenanceMode C origin s).2 = s ∨
      suspended (enterMaintenanceMode C origin s).2.rest = true := by
  unfold enterMaintenanceMode
  simp only [Call.ensure_bind, Call.get_bind]
  split_ifs
  · exact .inl rfl
  · exact .inr (doEnterMaintenanceMode_suspends hm s)
  · exact .inl rfl

theorem resumeNormalOperation_cases (hm : C.xcmExecutionManager.SetsFlag suspended)
    (origin : Origin) (s : State X XcmError) : (resumeNormalOperation C origin s).2 = s ∨
      (resumeNormalOperation C origin s).2.maintenanceMode = false := by
  unfold resumeNormalOperation
  simp only [Call.ensure_bind, Call.get_bind, Call.modify_bind]
  split_ifs
  · obtain ⟨rest, h, -⟩ := hm.resume s.rest
    have hrest := onRest_apply (s := { s with maintenanceMode := false }) h
    rw [Call.bind_ok (Call.handle_ok hrest)]
    exact .inr rfl
  · exact .inl rfl
  · exact .inl rfl

end Calls

section Runs

/-- XCM execution is suspended if the chain is in maintenance mode. -/
def SuspendedInMaintenance (suspended : X → Bool) (s : Runtime X XcmError) : Prop :=
  s.rest.maintenanceMode = true → suspended s.rest.rest = true

/-- The operation resumes XCM execution after an upgrade although the chain is in maintenance
mode. -/
def ResumesInMaintenance (s : Runtime X XcmError) : Op Origin → Prop
  | .onFinalize => s.shouldPauseXcm = true ∧ s.rest.maintenanceMode = true
  | _ => False

instance (s : Runtime X XcmError) (op : Op Origin) : Decidable (ResumesInMaintenance s op) :=
  match op with
  | .onFinalize => inferInstanceAs (Decidable (_ ∧ _))
  | .onRuntimeUpgrade _ | .onInitialize _ | .enterMaintenanceMode _ | .resumeNormalOperation _
  | .failed _ => inferInstanceAs (Decidable False)

variable {s : Runtime X XcmError} {op : Op Origin}

theorem hook_keeps {τ : Type} {f : Runtime X XcmError → τ}
    {op : Migrations.Op (State X XcmError)} (h : Call.Keeps f (op.run (sharedManager C))) :
    Call.Keeps f (hook C op) :=
  .handle h fun e => e.elim

theorem hook_snd (op : Migrations.Op (State X XcmError)) (s : Runtime X XcmError) :
    (hook C op s).2 = (op.run (sharedManager C) s).2 := by
  unfold hook Call.handle
  rcases h : op.run (sharedManager C) s with ⟨_ | e | m, s'⟩
  · rfl
  · exact e.elim
  · rfl

theorem onFinalize_resumes (hm : C.xcmExecutionManager.SetsFlag suspended)
    (hp : s.shouldPauseXcm = true) :
    (Op.onFinalize.run C s).2.rest.maintenanceMode = s.rest.maintenanceMode ∧
      suspended (Op.onFinalize.run C s).2.rest.rest = false := by
  obtain ⟨rest, h, hresumed⟩ := hm.resume s.rest.rest
  have hrun : (Op.onFinalize.run C s).2 = (Migrations.onFinalize (sharedManager C) s).2 :=
    hook_snd _ s
  rw [hrun, Migrations.onFinalize_paused hp (onRest_apply h)]
  exact ⟨rfl, hresumed⟩

/-- What an operation does to the mode and to XCM execution. -/
theorem exec_cases (hm : C.xcmExecutionManager.SetsFlag suspended) (s : Runtime X XcmError)
    (op : Op Origin) : (op.run C s).2.rest = s.rest ∨ suspended (op.run C s).2.rest.rest = true ∨
      (op.run C s).2.rest.maintenanceMode = false ∨
      op = .onFinalize ∧ s.shouldPauseXcm = true ∧
        (op.run C s).2.rest.maintenanceMode = s.rest.maintenanceMode ∧
        suspended (op.run C s).2.rest.rest = false := by
  cases op with
  | onRuntimeUpgrade env =>
    exact .inl (hook_keeps (.bind (Migrations.onRuntimeUpgrade_keeps_rest env) fun _ => .pure _) s)
  | onInitialize env =>
    have hrun : ((Op.onInitialize env).run C s).2 =
        (Migrations.onInitialize (sharedManager C) env s).2 :=
      (hook_snd _ s).trans (Call.snd_bind_pure _ _ s)
    rw [hrun]
    by_cases hp : s.shouldPauseXcm = true
    · obtain ⟨rest, h, hsuspended⟩ := hm.suspend s.rest.rest
      rw [Migrations.onInitialize_paused env hp (onRest_apply h)]
      exact .inr (.inl hsuspended)
    · rw [Migrations.onInitialize_unpaused env (by simpa using hp)]
      exact .inl rfl
  | onFinalize =>
    by_cases hp : s.shouldPauseXcm = true
    · exact .inr (.inr (.inr ⟨rfl, hp, onFinalize_resumes hm hp⟩))
    · have hrun : (Op.onFinalize.run C s).2 = s :=
        (hook_snd _ s).trans (Migrations.onFinalize_unpaused (by simpa using hp))
      rw [hrun]
      exact .inl rfl
  | enterMaintenanceMode origin =>
    rcases enterMaintenanceMode_cases hm origin s.rest with h | h
    · exact .inl h
    · exact .inr (.inl h)
  | resumeNormalOperation origin =>
    rcases resumeNormalOperation_cases hm origin s.rest with h | h
    · exact .inl h
    · exact .inr (.inr (.inl h))
  | failed migration =>
    have hrun : ((Op.failed migration).run C s).2.rest = (doEnterMaintenanceMode C s.rest).2 :=
      (Call.snd_bind_pure _ _ s.rest).trans (Call.snd_bind_pure _ _ s.rest)
    rw [hrun]
    exact .inr (.inl (doEnterMaintenanceMode_suspends hm s.rest))

/-- Every operation but such an `on_finalize` keeps XCM execution suspended in maintenance mode. -/
theorem suspendedInMaintenance_step (hm : C.xcmExecutionManager.SetsFlag suspended)
    (hs : SuspendedInMaintenance suspended s) (hop : ¬ ResumesInMaintenance s op) :
    SuspendedInMaintenance suspended (op.run C s).2 := by
  intro hmode
  rcases exec_cases hm s op with hrest | hsuspended | hnormal | ⟨rfl, hp, hsame, -⟩
  · rw [hrest] at hmode ⊢
    exact hs hmode
  · exact hsuspended
  · simp [hnormal] at hmode
  · exact absurd ⟨hp, hsame ▸ hmode⟩ hop

theorem not_suspended_of_resumes (hm : C.xcmExecutionManager.SetsFlag suspended)
    (hop : ResumesInMaintenance s op) : ¬ SuspendedInMaintenance suspended (op.run C s).2 := by
  cases op with
  | onFinalize =>
    obtain ⟨hp, hmode⟩ := hop
    obtain ⟨hsame, hresumed⟩ := onFinalize_resumes hm hp
    intro hs
    rw [hs (hsame.trans hmode)] at hresumed
    exact absurd hresumed (by decide)
  | _ => exact hop.elim

theorem build_rest (s : Runtime X XcmError) : ∀ migrations : List Migrations.Migration,
    (Migrations.build migrations s).rest = s.rest := by
  intro migrations
  induction migrations generalizing s with
  | nil => rfl
  | cons migration migrations ih =>
    exact ih { s with migrationState := s.migrationState.insert migration.friendlyName true }

/-- **XCM execution in maintenance mode.** In every run of blocks from a genesis in normal mode, XCM
execution is suspended in every state in maintenance mode if and only if no `on_finalize` ends the
block of an upgrade in maintenance mode. -/
theorem xcm_suspended_in_maintenance_iff (hm : C.xcmExecutionManager.SetsFlag suspended)
    {h : List (RunEvent Origin X XcmError)}
    (hr : (machine C).Run (fun h s op => InOrder h op ∧ Completes C s op) h s) :
    (∀ t ∈ s :: h.map Machine.Event.before, SuspendedInMaintenance suspended t) ↔
      ∀ e ∈ h, ¬ ResumesInMaintenance e.before e.op := by
  refine hr.forall_iff ?_ (fun _ _ => suspendedInMaintenance_step hm)
    fun _ _ => not_suspended_of_resumes hm
  rintro _ ⟨migrations, rest, rfl⟩
  simp [SuspendedInMaintenance, build_rest, Migrations.State.empty, build, State.empty]

/-- A runtime whose rest is the flag itself, with the `true` origin in charge. -/
def testConfig : Config Bool Bool Empty where
  maintenanceOrigin := id
  xcmExecutionManager := ⟨Call.modify fun _ => true, Call.modify fun _ => false⟩

theorem testConfig_setsFlag : testConfig.xcmExecutionManager.SetsFlag id where
  suspend _ := ⟨true, rfl, rfl⟩
  resume _ := ⟨false, rfl, rfl⟩

def testGenesis : Runtime Bool Empty := Migrations.build [] (.empty (build false (.empty false)))

def testEnv : Migrations.Env := ⟨[], ⟨.lit 1000, .lit 1000⟩, ⟨.lit 25, .lit 100⟩⟩

/-- A block that enters maintenance mode. -/
def maintenanceBlock : List (Op Bool) :=
  [.onInitialize testEnv, .enterMaintenanceMode true, .onFinalize]

/-- The first block of a new runtime. -/
def upgradeBlock : List (Op Bool) := [.onRuntimeUpgrade testEnv, .onInitialize testEnv, .onFinalize]

/-- The history and the state after these operations. -/
def testBlocks (ops : List (Op Bool)) : List (RunEvent Bool Bool Empty) × Runtime Bool Empty :=
  (machine testConfig).replay [] testGenesis ops

theorem run_testBlocks (ops : List (Op Bool))
    (ha : (machine testConfig).AllowsAll
      (fun h s op => InOrder h op ∧ Completes testConfig s op) [] testGenesis ops) :
    (machine testConfig).Run (fun h s op => InOrder h op ∧ Completes testConfig s op)
      (testBlocks ops).1 (testBlocks ops).2 :=
  Machine.run_replay ops (.start ⟨[], false, rfl⟩) ha

theorem xcm_suspended_in_maintenance_test :
    (testBlocks (upgradeBlock ++ maintenanceBlock)).2.rest.maintenanceMode = true ∧
      (testBlocks (upgradeBlock ++ maintenanceBlock)).2.rest.rest = true := by
  have hrun := run_testBlocks (upgradeBlock ++ maintenanceBlock) (by decide +kernel)
  have hall := (xcm_suspended_in_maintenance_iff testConfig_setsFlag hrun).2 (by decide +kernel)
  have hmode : (testBlocks (upgradeBlock ++ maintenanceBlock)).2.rest.maintenanceMode = true := by
    decide +kernel
  exact ⟨hmode, hall _ List.mem_cons_self hmode⟩

/-- An upgrade in maintenance mode ends with XCM execution resumed. -/
theorem upgrade_resumes_in_maintenance :
    (machine testConfig).Run (fun h s op => InOrder h op ∧ Completes testConfig s op)
      (testBlocks (maintenanceBlock ++ upgradeBlock)).1
      (testBlocks (maintenanceBlock ++ upgradeBlock)).2 ∧
    ¬ SuspendedInMaintenance id (testBlocks (maintenanceBlock ++ upgradeBlock)).2 := by
  refine ⟨run_testBlocks _ (by decide +kernel), ?_⟩
  unfold SuspendedInMaintenance
  decide +kernel

end Runs

end MaintenanceMode

end Moonkit
