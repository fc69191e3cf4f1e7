import Moonkit.Base.Once
import Moonkit.Migrations

/-!
# Migrations run once

An upgrade calls `migrate` for the listed names that are not recorded as done, once each and in
the order of the list, and records all of them. So along a run a name is migrated in the first
upgrade that lists it and never again, and a name of the genesis list is never migrated.
-/

namespace Moonkit

namespace Migrations

variable {X DispatchError : Type} {s s₁ s' : State X DispatchError}

def names (migrations : List Migration) : List (List UInt8) := migrations.map Migration.friendlyName

/-- The names whose migrations were called, oldest first. -/
def State.migrated (s : State X DispatchError) : List (List UInt8) := s.calls.map Prod.fst

/-- The name is recorded as done. -/
def State.Done (s : State X DispatchError) (name : List UInt8) : Prop :=
  s.migrationDone name = true

/-- Between `s` and `s'` the names of `listed` were passed over, and `new` was migrated. -/
structure Performs (listed : List (List UInt8)) (s s' : State X DispatchError)
    (new : List (List UInt8)) : Prop where
  pass : Once.Pass listed s.Done s'.Done new
  migrated : s'.migrated = s.migrated ++ new

namespace Performs

variable {listed listed₁ new new₁ : List (List UInt8)}

theorem refl (hcalls : s'.calls = s.calls) (hstate : s'.migrationState = s.migrationState) :
    Performs [] s s' [] where
  pass := by
    have hdone : s'.Done = s.Done := by
      funext name
      simp only [State.Done, State.migrationDone, hstate]
    rw [hdone]
    exact .nil
  migrated := by simp [State.migrated, hcalls]

theorem append (h₁ : Performs listed₁ s s₁ new₁) (h : Performs listed s₁ s' new) :
    Performs (listed₁ ++ listed) s s' (new₁ ++ new) where
  pass := h₁.pass.append h.pass
  migrated := by rw [h.migrated, h₁.migrated, List.append_assoc]

/-- What was migrated is what the calls of `migrate` grew by. -/
theorem eq_drop (h : Performs listed s s' new) : new = s'.migrated.drop s.migrated.length := by
  rw [h.migrated, List.drop_left]

end Performs

theorem done_insert (n name : List UInt8) (calls : List (List UInt8 × Weight))
    (events : List (Event DispatchError)) :
    ({ s with
        calls := calls
        events := events
        migrationState := s.migrationState.insert name true } : State X DispatchError).Done n ↔
      s.Done n ∨ n = name := by
  by_cases hn : n = name
  · subst hn
    simp [State.Done, State.migrationDone]
  · simp [State.Done, State.migrationDone, Finmap.lookup_insert_of_ne _ hn, hn]

section Upgrade

variable {migration : Migration} {availableWeight weight weight' : Weight} {env : Env}

theorem availableForStep_observes (availableWeight weight : Weight) :
    Call.Observes
      (availableForStep availableWeight weight : PalletCall X DispatchError Weight) := by
  unfold availableForStep
  split_ifs
  · exact .expect _ _
  · exact .pure 0

theorem performMigration_performs
    (h : performMigration availableWeight migration weight s = (.ok weight', s')) :
    ∃ new, Performs [migration.friendlyName] s s' new := by
  unfold performMigration at h
  rw [Call.get_bind] at h
  split_ifs at h with hdone
  · simp only [Call.pure_apply, Prod.mk.injEq] at h
    obtain ⟨-, rfl⟩ := h
    exact ⟨[], .skip hdone, by simp⟩
  · simp only [depositEvent, Call.modify_bind] at h
    obtain ⟨available, s₁, hstep, h⟩ := Call.bind_eq_ok.1 h
    obtain rfl := (availableForStep_observes availableWeight weight).same hstep
    obtain ⟨consumed, s₂, hinvoke, h⟩ := Call.bind_eq_ok.1 h
    simp only [invoke, Prod.mk.injEq] at hinvoke
    obtain ⟨-, rfl⟩ := hinvoke
    simp only [Call.modify_bind, Call.pure_apply, Prod.mk.injEq] at h
    obtain ⟨-, rfl⟩ := h
    refine ⟨[migration.friendlyName], .run hdone fun n => ?_, by simp [State.migrated]⟩
    exact done_insert n migration.friendlyName _ _

/-- The loop over the list, one migration after the other. -/
theorem performMigrations_performs : ∀ {migrations : List Migration} {weight : Weight}
    {s : State X DispatchError},
    performMigrations availableWeight migrations weight s = (.ok weight', s') →
    ∃ new, Performs (names migrations) s s' new
  | [], weight, s, h => by
    simp only [performMigrations, Call.pure_apply, Prod.mk.injEq] at h
    obtain ⟨-, rfl⟩ := h
    exact ⟨[], .refl rfl rfl⟩
  | migration :: migrations, weight, s, h => by
    unfold performMigrations at h
    obtain ⟨weight₁, s₁, hfirst, hrest⟩ := Call.bind_eq_ok.1 h
    obtain ⟨new₁, h₁⟩ := performMigration_performs hfirst
    obtain ⟨new, h⟩ := performMigrations_performs hrest
    exact ⟨new₁ ++ new, h₁.append h⟩

theorem onRuntimeUpgrade_performs (h : onRuntimeUpgrade env s = (.ok weight, s')) :
    (∃ new, Performs (names env.migrationsList) s s' new) ∧ s'.fullyUpgraded = true := by
  simp only [onRuntimeUpgrade, depositEvent, Call.modify_bind] at h
  obtain ⟨_, s₁, hperform, h⟩ := Call.bind_eq_ok.1 h
  simp only [Call.pure_apply, Prod.mk.injEq] at h
  obtain ⟨-, rfl⟩ := h
  simp only [performRuntimeUpgrades, depositEvent] at hperform
  obtain ⟨_, s₂, hloop, h⟩ := Call.bind_eq_ok.1 hperform
  simp only [Call.modify_bind, Call.pure_apply, Prod.mk.injEq] at h
  obtain ⟨-, rfl⟩ := h
  obtain ⟨new, hnew⟩ := performMigrations_performs hloop
  exact ⟨⟨new, hnew.pass, hnew.migrated⟩, rfl⟩

end Upgrade

section Hooks

variable (manager : PauseXcmExecution X DispatchError)

/-- What the hooks of a block leave alone. -/
def State.record (s : State X DispatchError) :
    List (List UInt8 × Weight) × StorageMap (List UInt8) Bool :=
  (s.calls, s.migrationState)

theorem onInitialize_keeps (env : Env) : Call.Keeps State.record (onInitialize manager env) := by
  refine .bind .get fun s => ?_
  split_ifs
  · exact .bind (.handle (.on _ fun _ _ => rfl) fun _ => .modify fun _ => rfl) fun _ => .pure _
  · exact .pure _

theorem onFinalize_keeps : Call.Keeps State.record (onFinalize manager) := by
  refine .bind .get fun s => ?_
  split_ifs
  · exact .bind (.handle (.on _ fun _ _ => rfl) fun _ => .modify fun _ => rfl) fun _ =>
      .modify fun _ => rfl
  · exact .pure _

end Hooks

section Runs

variable (manager : PauseXcmExecution X DispatchError)

/-- The names that the operation lists: those of the runtime it upgrades to. -/
def Op.listed : Op X → List (List UInt8)
  | .onRuntimeUpgrade env => names env.migrationsList
  | _ => []

/-- The names migrated by the operation of an event, oldest first. -/
def migratedIn (e : RunEvent X DispatchError) : List (List UInt8) :=
  e.after.migrated.drop e.before.migrated.length

theorem exec_performs {op : Op X} (h : Completes manager s op) :
    (∃ new, Performs op.listed s (op.run manager s).2 new)
      ∧ ∀ env, op = .onRuntimeUpgrade env → (op.run manager s).2.fullyUpgraded = true := by
  unfold Completes at h
  cases op with
  | onRuntimeUpgrade env =>
    rcases hu : onRuntimeUpgrade env s with ⟨weight | e | m, s'⟩
    · have hrun : (Op.onRuntimeUpgrade env).run manager s = (.ok (), s') := Call.bind_ok hu
      rw [hrun]
      obtain ⟨hnew, hfull⟩ := onRuntimeUpgrade_performs hu
      exact ⟨hnew, fun _ _ => hfull⟩
    · exact e.elim
    · have hrun : (Op.onRuntimeUpgrade env).run manager s = (.panic m, s') := Call.bind_panic hu
      rw [hrun] at h
      exact absurd h (by simp [Outcome.isPanic])
  | onInitialize env =>
    have hk := Call.Keeps.bind (onInitialize_keeps manager env) (fun _ => .pure ()) s
    exact ⟨⟨[], .refl (congrArg Prod.fst hk) (congrArg Prod.snd hk)⟩, by simp⟩
  | onFinalize =>
    have hk := onFinalize_keeps manager s
    exact ⟨⟨[], .refl (congrArg Prod.fst hk) (congrArg Prod.snd hk)⟩, by simp⟩
  | elsewhere rest => exact ⟨⟨[], .refl rfl rfl⟩, by simp⟩

/-- An upgrade of the history lists the name. -/
def ListedIn (h : List (RunEvent X DispatchError)) (n : List UInt8) : Prop :=
  ∃ e ∈ h, n ∈ e.op.listed

theorem listed_iff {h : List (RunEvent X DispatchError)} {n : List UInt8} :
    Once.Listed (h.map fun e => e.op.listed) n ↔ ListedIn h n := by
  simp [Once.Listed, ListedIn]

variable {manager} {genesisMigrations : List Migration} {h : List (RunEvent X DispatchError)}

theorem build_done : ∀ (migrations : List Migration) (s : State X DispatchError),
    (build migrations s).calls = s.calls ∧
      ∀ n, (build migrations s).Done n ↔ s.Done n ∨ n ∈ names migrations
  | [], s => by simp [build, names]
  | migration :: migrations, s => by
    obtain ⟨hcalls, hdone⟩ := build_done migrations
      { s with migrationState := s.migrationState.insert migration.friendlyName true }
    refine ⟨hcalls, fun n => (hdone n).trans ?_⟩
    rw [done_insert n migration.friendlyName s.calls s.events, or_assoc]
    simp [names]

/-- What a run has done and migrated is what passes over the lists of its upgrades lead to. -/
theorem history_of_run (hr : (machine manager genesisMigrations).Run
      (fun _ s op => Completes manager s op) h s) :
    Once.History (· ∈ names genesisMigrations) (h.map fun e => e.op.listed) s.Done s.migrated := by
  refine hr.invariant (fun h s => Once.History (· ∈ names genesisMigrations)
    (h.map fun e => e.op.listed) s.Done s.migrated) ?_ ?_
  · rintro _ ⟨rest, rfl⟩
    obtain ⟨hcalls, hdone⟩ := build_done genesisMigrations (.empty rest : State X DispatchError)
    rw [State.migrated, hcalls]
    refine .nil fun n => (hdone n).trans ?_
    simp [State.Done, State.migrationDone, State.empty]
  · intro h s op _ hi hc
    obtain ⟨⟨new, hp⟩, -⟩ := exec_performs manager hc
    have hpass := hi.pass hp.pass
    rw [← hp.migrated] at hpass
    exact hpass

/-- **Migrations run once.** Along every run `migrate` is called at most once for a name, never for
a name of the genesis list and exactly once for every other listed name. An upgrade calls it, in
the order of its list, for the listed names that neither the genesis nor an earlier upgrade lists;
after it all listed names are recorded, with all that were before, and the upgrade is complete. -/
theorem migrations_run_once (hr : (machine manager genesisMigrations).Run
      (fun _ s op => Completes manager s op) h s) :
    s.migrated.Nodup ∧
    (∀ n ∈ names genesisMigrations, n ∉ s.migrated) ∧
    (∀ n ∉ names genesisMigrations, ListedIn h n → s.migrated.count n = 1) ∧
    (∀ n ∈ s.migrated, ListedIn h n) ∧
    ∀ later e earlier, h = later ++ e :: earlier →
      (∀ n, n ∈ migratedIn e ↔
        n ∈ e.op.listed ∧ n ∉ names genesisMigrations ∧ ¬ ListedIn earlier n)
      ∧ (migratedIn e).Sublist e.op.listed
      ∧ (∀ n ∈ e.op.listed, e.after.migrationDone n = true)
      ∧ (∀ n, e.before.migrationDone n = true → e.after.migrationDone n = true)
      ∧ ∀ env, e.op = .onRuntimeUpgrade env → e.after.fullyUpgraded = true := by
  have hi := history_of_run hr
  refine ⟨hi.once, fun n hn hm => ((hi.mem n).1 hm).1 hn, fun n hn hl => ?_,
    fun n hm => listed_iff.1 ((hi.mem n).1 hm).2, ?_⟩
  · exact List.count_eq_one_of_mem hi.once ((hi.mem n).2 ⟨hn, listed_iff.2 hl⟩)
  · rintro later e earlier rfl
    obtain ⟨s₁, hsuffix⟩ := hr.suffix (List.suffix_append later (e :: earlier))
    cases hsuffix with
    | step hbefore hc =>
      obtain ⟨⟨new, hp⟩, hfull⟩ := exec_performs manager hc
      obtain rfl := hp.eq_drop
      have hran := (history_of_run hbefore).mem_ran hp.pass
      simp only [listed_iff] at hran
      exact ⟨hran, hp.pass.order, fun n hn => (hp.pass.done n).2 (.inr hn),
        fun n hn => (hp.pass.done n).2 (.inl hn), hfull⟩

/-- Migrations with these names, each of which consumes the weight it is given. -/
def testMigrations (names : List (List UInt8)) : List Migration := names.map fun n => ⟨n, id⟩

/-- An upgrade to a runtime with these migrations. -/
def testUpgrade (names : List (List UInt8)) : Op Unit :=
  .onRuntimeUpgrade ⟨testMigrations names, ⟨.lit 1000, .lit 1000⟩, ⟨.lit 25, .lit 100⟩⟩

/-- Two upgrades after a genesis with the migration `[1]`. -/
def testUpgrades : List (RunEvent Unit Empty) × State Unit Empty :=
  (machine ⟨pure (), pure ()⟩ (testMigrations [[1]])).replay []
    (build (testMigrations [[1]]) (.empty ()))
    [testUpgrade [[1], [2], [2]], .onFinalize, testUpgrade [[3], [2], [1]]]

theorem migrations_run_once_test :
    testUpgrades.2.migrated = [[2], [3]] ∧ testUpgrades.2.migrated.Nodup := by
  have hrun : (machine ⟨pure (), pure ()⟩ (testMigrations [[1]])).Run
      (fun _ s op => Completes ⟨pure (), pure ()⟩ s op) testUpgrades.1 testUpgrades.2 :=
    Machine.run_replay _ (.start ⟨(), rfl⟩) (by decide +kernel)
  exact ⟨by decide +kernel, (migrations_run_once hrun).1⟩

end Runs

end Migrations

end Moonkit
