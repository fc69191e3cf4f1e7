import Moonkit.Base.LastWrite
import Moonkit.Proofs.MigrateOnce
import Moonkit.TryRuntime

/-!
# Try-runtime hooks

`pre_upgrade`, the upgrade and `post_upgrade` select the migrations by three tests: not done before,
not done when its turn comes, and hinted at by `pre_upgrade`. For a list without duplicate names
these select the same migrations, and each gets back what its own `pre_upgrade` returned.
-/

namespace Moonkit

namespace Migrations

open LastWrite (lastBy insertAll)

variable {X DispatchError : Type} {s s' : TryState X DispatchError} {hints hints' : Hints}
  {migration : TryMigration X DispatchError} {migrations : List (TryMigration X DispatchError)}
  {ran : List (List UInt8 × List UInt8)}

/-- The list as the upgrade has it, without the try-runtime hooks. -/
def untried (migrations : List (TryMigration X DispatchError)) : List Migration :=
  migrations.map TryMigration.toMigration

section PreUpgrade

/-- The hints with those of the names and returned bytes of `ran`. -/
def hintsOf (ran : List (List UInt8 × List UInt8)) (hints : Hints) : Hints :=
  (insertAll Prod.fst (fun _ => true) ran hints.1, insertAll Prod.fst Prod.snd ran hints.2)

/-- Between `s` and `s'` the calls of `pre_upgrade` were those of `ran`, for the migrations that are
not done. -/
structure Prepares (migrations : List (TryMigration X DispatchError))
    (s s' : TryState X DispatchError) (ran : List (List UInt8 × List UInt8)) : Prop where
  preCalls : s'.preCalls = s.preCalls ++ ran.map fun c => (c.1, .ok c.2)
  postCalls : s'.postCalls = s.postCalls
  runtime : ∃ rest, s'.runtime = { s.runtime with rest := rest }
  undone : ran.map Prod.fst =
    (names (untried migrations)).filter fun n => ¬ s.runtime.migrationDone n

namespace Prepares

theorem refl (s : TryState X DispatchError) : Prepares [] s s [] where
  preCalls := by simp
  postCalls := rfl
  runtime := ⟨s.runtime.rest, rfl⟩
  undone := by simp [names, untried]

theorem skip (hdone : s.runtime.migrationDone migration.friendlyName)
    (h : Prepares migrations s s' ran) : Prepares (migration :: migrations) s s' ran where
  preCalls := h.preCalls
  postCalls := h.postCalls
  runtime := h.runtime
  undone := by
    rw [h.undone]
    simp [names, untried, hdone]

theorem call {s₁ : TryState X DispatchError} {state : List UInt8}
    (hdone : ¬ s.runtime.migrationDone migration.friendlyName)
    (hcall : migration.invokePreUpgrade s = (.ok (.ok state), s₁))
    (h : Prepares migrations s₁ s' ran) :
    Prepares (migration :: migrations) s s' ((migration.friendlyName, state) :: ran) := by
  simp only [TryMigration.invokePreUpgrade, Prod.mk.injEq, Outcome.ok.injEq] at hcall
  obtain ⟨hanswer, rfl⟩ := hcall
  obtain ⟨rest, hrest⟩ := h.runtime
  refine ⟨?_, h.postCalls, ⟨rest, hrest⟩, ?_⟩
  · rw [h.preCalls, hanswer]
    simp
  · have hundone := h.undone
    simp only [State.migrationDone] at hdone hundone ⊢
    rw [List.map_cons, hundone]
    simp [names, untried, hdone]

end Prepares

theorem preUpgradeStep_eq_ok
    (h : preUpgradeStep migration hints s = (.ok hints', s')) :
    (s.runtime.migrationDone migration.friendlyName ∧ hints' = hints ∧ s' = s) ∨
      ¬ s.runtime.migrationDone migration.friendlyName ∧
        ∃ state, migration.invokePreUpgrade s = (.ok (.ok state), s') ∧
          hints' = hintsOf [(migration.friendlyName, state)] hints := by
  unfold preUpgradeStep at h
  rw [Call.get_bind] at h
  split_ifs at h with hdone
  · obtain ⟨hhints, rfl⟩ := Prod.mk.inj h
    exact .inl ⟨hdone, (Outcome.ok.inj hhints).symm, rfl⟩
  · obtain ⟨answer, s₁, hcall, h⟩ := Call.bind_eq_ok.1 h
    obtain ⟨state, hstate, h⟩ := Call.expect_bind_eq_ok.1 h
    obtain ⟨hhints, rfl⟩ := Prod.mk.inj h
    obtain rfl : answer = .ok state := by
      cases answer with
      | ok state' => exact congrArg Except.ok (Option.some.inj hstate)
      | error e => cases hstate
    exact .inr ⟨hdone, state, hcall, (Outcome.ok.inj hhints).symm⟩

theorem preUpgradeLoop_eq_ok : ∀ {migrations : List (TryMigration X DispatchError)} {hints : Hints}
    {s : TryState X DispatchError}, preUpgradeLoop migrations hints s = (.ok hints', s') →
    ∃ ran, Prepares migrations s s' ran ∧ hints' = hintsOf ran hints
  | [], hints, s, h => by
    obtain ⟨hhints, rfl⟩ := Prod.mk.inj h
    exact ⟨[], .refl s, (Outcome.ok.inj hhints).symm⟩
  | migration :: migrations, hints, s, h => by
    obtain ⟨hints₁, s₁, hstep, hrest⟩ := Call.bind_eq_ok.1 h
    obtain ⟨ran, hprep, rfl⟩ := preUpgradeLoop_eq_ok hrest
    rcases preUpgradeStep_eq_ok hstep with ⟨hdone, rfl, rfl⟩ | ⟨hdone, state, hcall, rfl⟩
    · exact ⟨ran, hprep.skip hdone, rfl⟩
    · exact ⟨_, hprep.call hdone hcall, rfl⟩

end PreUpgrade

section PostUpgrade

variable {state : List UInt8} {failed : Bool}

/-- Whether a call of `post_upgrade` returned an error. -/
def Failed (c : List UInt8 × List UInt8 × Except DispatchError Unit) : Bool := !c.2.2.toBool

/-- Between `s` and `s'` the calls of `post_upgrade` were those of `post`. -/
structure Checks (migrations : List (TryMigration X DispatchError))
    (ran : List (List UInt8 × List UInt8)) (s s' : TryState X DispatchError)
    (post : List (List UInt8 × List UInt8 × Except DispatchError Unit)) : Prop where
  preCalls : s'.preCalls = s.preCalls
  postCalls : s'.postCalls = s.postCalls ++ post
  hinted : post.map (fun c => (c.1, c.2.1)) =
    (names (untried migrations)).filterMap fun n => lastBy Prod.fst n ran

theorem hintsOf_stateMap (ran : List (List UInt8 × List UInt8)) (n : List UInt8) :
    (hintsOf ran (∅, ∅)).1.lookup n = (lastBy Prod.fst n ran).map fun _ => true := by
  unfold hintsOf
  rw [LastWrite.lookup_insertAll, Finmap.lookup_empty, Option.or_none]

theorem hintsOf_migrationStates (ran : List (List UInt8 × List UInt8)) (n : List UInt8) :
    (hintsOf ran (∅, ∅)).2.lookup n = (lastBy Prod.fst n ran).map Prod.snd := by
  unfold hintsOf
  rw [LastWrite.lookup_insertAll, Finmap.lookup_empty, Option.or_none]

theorem postUpgradeStep_skip (h : lastBy Prod.fst migration.friendlyName ran = none) :
    postUpgradeStep (hintsOf ran (∅, ∅)) migration failed s = (.ok failed, s) := by
  unfold postUpgradeStep
  rw [hintsOf_stateMap, h]
  rfl

theorem postUpgradeStep_call {n : List UInt8}
    (h : lastBy Prod.fst migration.friendlyName ran = some (n, state))
    {result : Except DispatchError Unit}
    (hcall : migration.invokePostUpgrade state s = (.ok result, s')) :
    postUpgradeStep (hintsOf ran (∅, ∅)) migration failed s =
      (.ok (failed || !result.toBool), s') := by
  unfold postUpgradeStep
  rw [hintsOf_stateMap, hintsOf_migrationStates, h]
  exact Call.bind_eq_ok.2 ⟨(), s, rfl, Call.bind_eq_ok.2 ⟨result, s', hcall, rfl⟩⟩

theorem invokePostUpgrade_ok (migration : TryMigration X DispatchError) (state : List UInt8)
    (s : TryState X DispatchError) : ∃ result s',
    migration.invokePostUpgrade state s = (.ok result, s') ∧ s'.preCalls = s.preCalls ∧
      s'.postCalls = s.postCalls ++ [(migration.friendlyName, state, result)] :=
  ⟨_, _, rfl, rfl, rfl⟩

theorem postUpgradeLoop_checks (ran : List (List UInt8 × List UInt8)) :
    ∀ (migrations : List (TryMigration X DispatchError)) (failed : Bool)
      (s : TryState X DispatchError), ∃ post s',
      postUpgradeLoop (hintsOf ran (∅, ∅)) migrations failed s =
          (.ok (failed || post.any Failed), s') ∧
        Checks migrations ran s s' post
  | [], failed, s => by
    refine ⟨[], s, by simp [postUpgradeLoop], rfl, by simp, by simp [names, untried]⟩
  | migration :: migrations, failed, s => by
    rcases hhint : lastBy Prod.fst migration.friendlyName ran with _ | ⟨n, state⟩
    · obtain ⟨post, s', hloop, hchecks⟩ := postUpgradeLoop_checks ran migrations failed s
      refine ⟨post, s', (Call.bind_ok (postUpgradeStep_skip hhint)).trans hloop,
        hchecks.preCalls, hchecks.postCalls, ?_⟩
      rw [hchecks.hinted]
      simp [names, untried, hhint]
    · obtain rfl : n = migration.friendlyName := LastWrite.key_of_lastBy hhint
      obtain ⟨result, s₁, hcall, hpre, hpost⟩ := invokePostUpgrade_ok migration state s
      obtain ⟨post, s', hloop, hchecks⟩ :=
        postUpgradeLoop_checks ran migrations (failed || !result.toBool) s₁
      refine ⟨(migration.friendlyName, state, result) :: post, s', ?_,
        hchecks.preCalls.trans hpre, ?_, ?_⟩
      · refine (Call.bind_ok (postUpgradeStep_call hhint hcall)).trans (hloop.trans ?_)
        rw [List.any_cons, Bool.or_assoc]
        rfl
      · rw [hchecks.postCalls, hpost, List.append_assoc]
        rfl
      · rw [List.map_cons, hchecks.hinted]
        simp [names, untried, hhint]

end PostUpgrade

section TryRuntime

variable {encode : Hints → List UInt8} {decode : List UInt8 → Option Hints}

/-- The error of `post_upgrade`. -/
def failedError : TryError := .other "One or more post_upgrade tests failed; see output above."

theorem failed_iff {c : List UInt8 × List UInt8 × Except DispatchError Unit} :
    Failed c ↔ ∃ e, c.2.2 = .error e := by
  obtain ⟨n, state, result⟩ := c
  cases result with
  | ok u => simp [Failed, Except.toBool]
  | error e => simp [Failed, Except.toBool]

theorem preUpgrade_eq_ok {state : List UInt8}
    (h : preUpgrade encode migrations s = (.ok state, s')) :
    ∃ ran, Prepares migrations s s' ran ∧ state = encode (hintsOf ran (∅, ∅)) ∧
      preUpgradeLoop migrations (∅, ∅) s = (.ok (hintsOf ran (∅, ∅)), s') := by
  obtain ⟨hints, s₁, hloop, h⟩ := Call.bind_eq_ok.1 h
  obtain ⟨hstate, rfl⟩ := Prod.mk.inj h
  obtain ⟨ran, hprep, rfl⟩ := preUpgradeLoop_eq_ok hloop
  exact ⟨ran, hprep, (Outcome.ok.inj hstate).symm, hloop⟩

/-- With the hints of `ran`, `post_upgrade` fails exactly where one of its calls does. -/
theorem postUpgrade_checks {state : List UInt8}
    (hdecode : decode state = some (hintsOf ran (∅, ∅)))
    (migrations : List (TryMigration X DispatchError)) (s : TryState X DispatchError) : ∃ post s',
    postUpgrade decode migrations state s =
        (if post.any Failed then .err failedError else .ok (), s') ∧
      Checks migrations ran s s' post := by
  obtain ⟨post, s', hloop, hchecks⟩ := postUpgradeLoop_checks ran migrations false s
  refine ⟨post, s', ?_, hchecks⟩
  unfold postUpgrade
  rw [hdecode, Call.expect_some, Call.pure_bind_apply, Call.bind_ok hloop, Bool.false_or]
  cases post.any Failed <;> rfl

instance (s : State X DispatchError) : DecidablePred s.Done := fun name =>
  inferInstanceAs (Decidable (s.migrationDone name = true))

theorem Prepares.migrated (hprep : Prepares migrations s s' ran)
    (hnodup : (names (untried migrations)).Nodup) {env : Env}
    (henv : env.migrationsList = untried migrations) {weight : Weight}
    {runtime : State X DispatchError}
    (hup : onRuntimeUpgrade env s'.runtime = (.ok weight, runtime)) :
    runtime.migrated = s.runtime.migrated ++ ran.map Prod.fst := by
  obtain ⟨⟨new, hnew⟩, -⟩ := onRuntimeUpgrade_performs hup
  rw [henv] at hnew
  obtain ⟨rest, hruntime⟩ := hprep.runtime
  have hran : new = ran.map Prod.fst := by
    rw [hnew.pass.eq_filter hnodup, hprep.undone, hruntime]
    rfl
  rw [hnew.migrated, hran, hruntime]
  rfl

/-- **Try-runtime hooks.** Where `pre_upgrade` returns and the upgrade completes, the pallet has
called `pre_upgrade` and `migrate` for the same migrations, and `post_upgrade` is called for them
too: for those that were not done, in the order of the list. Each gets the bytes that its own
`pre_upgrade` returned. The pallet's `post_upgrade` does not panic, and fails exactly where one of
these calls does. The migrations may change the rest of the runtime to any `rest`. -/
theorem try_runtime_hooks_agree (hnodup : (names (untried migrations)).Nodup) {env : Env}
    (henv : env.migrationsList = untried migrations) {s₁ : TryState X DispatchError}
    {state : List UInt8} {weight : Weight} {runtime : State X DispatchError}
    (hcodec : ∀ hints, preUpgradeLoop migrations (∅, ∅) s = (.ok hints, s₁) →
      decode (encode hints) = some hints)
    (hpre : preUpgrade encode migrations s = (.ok state, s₁))
    (hup : onRuntimeUpgrade env s₁.runtime = (.ok weight, runtime)) (rest : X) :
    ∃ pre post result s₂,
      postUpgrade decode migrations state { s₁ with runtime := { runtime with rest := rest } } =
        (result, s₂) ∧
      s₁.preCalls = s.preCalls ++ pre ∧
      runtime.migrated = s.runtime.migrated ++ pre.map Prod.fst ∧
      s₂.postCalls = s.postCalls ++ post ∧
      pre.map Prod.fst =
        (names (untried migrations)).filter (fun n => ¬ s.runtime.migrationDone n) ∧
      pre = post.map (fun c => (c.1, .ok c.2.1)) ∧
      (result = .ok () ∨ result = .err failedError) ∧
      ((∃ e, result = .err e) ↔ ∃ c ∈ post, ∃ e, c.2.2 = .error e) := by
  obtain ⟨ran, hprep, rfl, hloop⟩ := preUpgrade_eq_ok hpre
  obtain ⟨post, s₂, hpost, hchecks⟩ := postUpgrade_checks (hcodec _ hloop) migrations
    { s₁ with runtime := { runtime with rest := rest } }
  have hran : post.map (fun c => (c.1, c.2.1)) = ran := by
    rw [hchecks.hinted]
    exact LastWrite.filterMap_lastBy (hprep.undone ▸ List.filter_sublist) hnodup
  have hfst : (ran.map fun c => (c.1, (.ok c.2 : Except DispatchError (List UInt8)))).map Prod.fst =
      ran.map Prod.fst := by
    rw [List.map_map]
    rfl
  refine ⟨_, post, _, s₂, hpost, hprep.preCalls, ?_, ?_, ?_, ?_, ?_, ?_⟩
  · rw [hfst]
    exact hprep.migrated hnodup henv hup
  · rw [hchecks.postCalls, ← hprep.postCalls]
  · rw [hfst, hprep.undone]
  · rw [← hran, List.map_map]
    rfl
  · split_ifs
    · exact .inr rfl
    · exact .inl rfl
  · have hany : post.any Failed ↔ ∃ c ∈ post, ∃ e, c.2.2 = .error e := by
      simp only [List.any_eq_true, failed_iff]
    rw [← hany]
    split_ifs with hfailed
    · simp [hfailed]
    · simp [hfailed]

def testTryMigration (name state : List UInt8) (passes : Bool) : TryMigration Unit Unit where
  friendlyName := name
  migrate := id
  preUpgrade rest := (.ok state, rest)
  postUpgrade _ rest := (if passes then .ok () else .error (), rest)

/-- Three migrations with the names `a`, `b` and `c`. -/
def testTryMigrations : List (TryMigration Unit Unit) :=
  [testTryMigration [97] [1] true, testTryMigration [98] [2] true, testTryMigration [99] [] false]

def testTryEnv : Env := ⟨untried testTryMigrations, ⟨.lit 1000, .lit 1000⟩, ⟨.lit 25, .lit 100⟩⟩

/-- The migration `b` is done. -/
def testTryState : TryState Unit Unit where
  runtime := { State.empty () with migrationState := (∅ : StorageMap _ _).insert [98] true }
  preCalls := []
  postCalls := []

/-- The SCALE encoding of the maps for `a` and `c`. -/
def testBytes : List UInt8 := [8, 4, 97, 1, 4, 99, 1, 8, 4, 97, 4, 1, 4, 99, 0]

def testHints : Hints := hintsOf [([97], [1]), ([99], [])] (∅, ∅)

def testDecode (state : List UInt8) : Option Hints :=
  if state = testBytes then some testHints else none

def testPrepared : Outcome TryError Hints × TryState Unit Unit :=
  preUpgradeLoop testTryMigrations (∅, ∅) testTryState

def testUpgraded : Outcome Empty Weight × State Unit Unit :=
  onRuntimeUpgrade testTryEnv testPrepared.2.runtime

theorem try_runtime_hooks_agree_test :
    ∃ (pre : List (List UInt8 × Except Unit (List UInt8)))
      (post : List (List UInt8 × List UInt8 × Except Unit Unit)) (result : Outcome TryError Unit)
      (s₂ : TryState Unit Unit),
      postUpgrade testDecode testTryMigrations testBytes
          { testPrepared.2 with runtime := { testUpgraded.2 with rest := () } } = (result, s₂) ∧
        testPrepared.2.preCalls = pre ∧ s₂.postCalls = post ∧ pre.map Prod.fst = [[97], [99]] ∧
        pre = post.map (fun c => (c.1, .ok c.2.1)) := by
  have hrun : preUpgradeLoop testTryMigrations (∅, ∅) testTryState =
      (.ok testHints, testPrepared.2) := rfl
  have hup : onRuntimeUpgrade testTryEnv testPrepared.2.runtime =
      (.ok testTryEnv.maxBlock, testUpgraded.2) := rfl
  have hpre : preUpgrade (fun _ => testBytes) testTryMigrations testTryState =
      (.ok testBytes, testPrepared.2) := Call.bind_ok hrun
  obtain ⟨pre, post, result, s₂, hpost, hpreCalls, -, hpostCalls, hnames, hstates, -, -⟩ :=
    try_runtime_hooks_agree (by decide) rfl
      (fun hints h => by
        obtain rfl := Outcome.ok.inj (congrArg Prod.fst (hrun.symm.trans h))
        show testDecode testBytes = some testHints
        exact if_pos rfl) hpre hup ()
  exact ⟨pre, post, result, s₂, hpost, hpreCalls, hpostCalls, hnames, hstates⟩

end TryRuntime

end Migrations

end Moonkit
