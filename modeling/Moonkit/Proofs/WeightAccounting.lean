import Moonkit.Migrations

/-!
# The weight handed to migrations

Each migration of an upgrade is given what the earlier ones left, and nothing once the computation
part is used up. The subtraction behind it takes both parts of a weight, but only the computation
part is compared before it. So an upgrade panics exactly when the earlier migrations went over the
proof size before they used up the computation part, and another migration is still to run.
-/

namespace Moonkit

namespace Migrations

variable {X DispatchError : Type} {s s' : State X DispatchError}

/-- What a migration is given of `available` after `consumed` was used. -/
def share (available consumed : Weight) : Weight :=
  if consumed.refTime < available.refTime then available.saturatingSub consumed else 0

/-- The migrations to run, in the order of the list: those not done, each name once. -/
def pending : (List UInt8 → Bool) → List Migration → List Migration
  | _, [] => []
  | done, m :: ms =>
    if done m.friendlyName then pending done ms
    else m :: pending (Function.update done m.friendlyName true) ms

/-- The weight consumed after `m`, which was given its share. -/
def consume (available weight : Weight) (m : Migration) : Weight :=
  weight.saturatingAdd (m.migrate (share available weight))

/-- What the migrations consume, one after the other, each given its share. -/
def spent (available : Weight) (ms : List Migration) : Weight := ms.foldl (consume available) 0

/-- The proof size is not exceeded before the computation part is used up. -/
def Fits (available weight : Weight) : Prop :=
  weight.refTime < available.refTime → weight.proofSize ≤ available.proofSize

/-- What the migrations called with these weights consumed. -/
def consumed (calls : List (Migration × Weight)) : Weight :=
  (calls.map fun call => call.1.migrate call.2).foldl Weight.saturatingAdd 0

/-- The upgrade subtracts without underflow, and calls the pending migrations, each with its share
of what the earlier ones left. -/
structure Accounts (env : Env) (available : Weight) (s : State X DispatchError) : Prop where
  completes : (performRuntimeUpgrades env available s).1.isPanic = false
  shares : ∃ calls : List (Migration × Weight),
    calls.map Prod.fst = pending s.migrationDone env.migrationsList ∧
    (performRuntimeUpgrades env available s).2.calls =
      s.calls ++ calls.map (fun call => (call.1.friendlyName, call.2)) ∧
    ∀ earlier m given later, calls = earlier ++ (m, given) :: later →
      given = share available (consumed earlier)

section Step

variable {available weight : Weight} {m : Migration}

theorem availableForStep_ok (h : Fits available weight) :
    availableForStep available weight s = (.ok (share available weight), s) := by
  unfold availableForStep share
  split_ifs with hlt
  · have hsub : available.checkedSub weight = some (available.saturatingSub weight) := by
      unfold Weight.checkedSub Weight.saturatingSub Uint.checkedSub
      rw [if_pos (Uint.le_iff_val.1 hlt.le), if_pos (Uint.le_iff_val.1 (h hlt))]
      rfl
    rw [hsub]
    rfl
  · rfl

theorem availableForStep_panic (h : ¬ Fits available weight) :
    availableForStep available weight s = (.panic "attempt to subtract with overflow", s) := by
  unfold Fits at h
  push Not at h
  have hsub : available.checkedSub weight = none := by
    unfold Weight.checkedSub
    rw [Uint.checkedSub_eq_none.2 (Uint.lt_iff_val.1 h.2)]
    rcases available.refTime.checkedSub weight.refTime with _ | refTime <;> rfl
  unfold availableForStep
  rw [if_pos h.1, hsub]
  rfl

theorem performMigration_done (h : s.migrationDone m.friendlyName = true) :
    performMigration available m weight s = (.ok weight, s) := by
  unfold performMigration
  rw [Call.get_bind, if_pos h]
  rfl

theorem performMigration_ok (hdone : ¬ s.migrationDone m.friendlyName = true)
    (h : Fits available weight) : ∃ s₁,
      performMigration available m weight s = (.ok (consume available weight m), s₁) ∧
      s₁.calls = s.calls ++ [(m.friendlyName, share available weight)] ∧
      s₁.migrationDone = Function.update s.migrationDone m.friendlyName true := by
  unfold performMigration
  rw [Call.get_bind, if_neg hdone]
  simp only [depositEvent, Call.modify_bind, Call.bind_ok (availableForStep_ok h)]
  refine ⟨_, rfl, rfl, funext fun n => ?_⟩
  by_cases hn : n = m.friendlyName
  · subst hn
    simp [State.migrationDone]
  · simp [State.migrationDone, Finmap.lookup_insert_of_ne _ hn, Function.update_of_ne hn]

theorem performMigration_panic (hdone : ¬ s.migrationDone m.friendlyName = true)
    (h : ¬ Fits available weight) : ∃ s₁,
      performMigration available m weight s =
        (.panic "attempt to subtract with overflow", s₁) := by
  unfold performMigration
  rw [Call.get_bind, if_neg hdone]
  simp only [depositEvent, Call.modify_bind]
  exact ⟨_, Call.bind_panic (availableForStep_panic h)⟩

end Step

section Loop

variable {available : Weight}

/-- The pending migrations fit: none of them begins when `Fits` has failed. -/
def AllFit (available weight : Weight) (ms : List Migration) : Prop :=
  ∀ earlier m later, ms = earlier ++ m :: later →
    Fits available (earlier.foldl (consume available) weight)

theorem allFit_nil (weight : Weight) : AllFit available weight [] := by
  intro earlier m later h
  simp at h

theorem allFit_cons {weight : Weight} {m : Migration} {ms : List Migration} :
    AllFit available weight (m :: ms) ↔
      Fits available weight ∧ AllFit available (consume available weight m) ms := by
  constructor
  · intro h
    refine ⟨h [] m ms rfl, fun earlier m' later hms => ?_⟩
    exact h (m :: earlier) m' later (by rw [hms, List.cons_append])
  · rintro ⟨hfits, hall⟩ earlier m' later hms
    rcases List.cons_eq_append_iff.1 hms with ⟨rfl, -⟩ | ⟨earlier, rfl, htail⟩
    · exact hfits
    · exact hall earlier m' later htail

/-- The migrations with the share each is given. -/
def handOut (available : Weight) : Weight → List Migration → List (Migration × Weight)
  | _, [] => []
  | weight, m :: ms =>
    (m, share available weight) :: handOut available (consume available weight m) ms

theorem handOut_fst : ∀ (weight : Weight) (ms : List Migration),
    (handOut available weight ms).map Prod.fst = ms
  | _, [] => rfl
  | weight, m :: ms => by rw [handOut, List.map_cons, handOut_fst]

/-- Each share is what is left of the weight after what the earlier migrations consumed. -/
theorem handOut_share : ∀ (weight : Weight) (ms : List Migration)
    (earlier : List (Migration × Weight)) (m : Migration) (given : Weight)
    (later : List (Migration × Weight)),
    handOut available weight ms = earlier ++ (m, given) :: later →
    given = share available
      ((earlier.map fun call => call.1.migrate call.2).foldl Weight.saturatingAdd weight)
  | _, [], _, _, _, _, h => by simp [handOut] at h
  | weight, m' :: ms, earlier, m, given, later, h => by
    rcases List.cons_eq_append_iff.1 h with ⟨rfl, hcons⟩ | ⟨earlier, rfl, htail⟩
    · simp only [List.cons.injEq, Prod.mk.injEq] at hcons
      exact hcons.1.2
    · exact handOut_share (consume available weight m') ms earlier m given later htail

theorem performMigrations_ok : ∀ (migrations : List Migration) (weight : Weight)
    (s : State X DispatchError), AllFit available weight (pending s.migrationDone migrations) →
    ∃ weight' s', performMigrations available migrations weight s = (.ok weight', s') ∧
      s'.calls = s.calls ++ (handOut available weight (pending s.migrationDone migrations)).map
        fun call => (call.1.friendlyName, call.2)
  | [], weight, s, _ => ⟨weight, s, rfl, by simp [pending, handOut]⟩
  | m :: ms, weight, s, hall => by
    unfold performMigrations
    unfold pending at hall ⊢
    split_ifs at hall ⊢ with hdone
    · obtain ⟨weight', s', hrest, hcalls⟩ := performMigrations_ok ms weight s hall
      exact ⟨weight', s', by rw [Call.bind_ok (performMigration_done hdone), hrest], hcalls⟩
    · obtain ⟨hfits, hall⟩ := allFit_cons.1 hall
      obtain ⟨s₁, hstep, hcalls₁, hdone₁⟩ := performMigration_ok hdone hfits
      rw [← hdone₁] at hall ⊢
      obtain ⟨weight', s', hrest, hcalls⟩ := performMigrations_ok ms _ s₁ hall
      refine ⟨weight', s', by rw [Call.bind_ok hstep, hrest], ?_⟩
      rw [hcalls, hcalls₁, handOut, List.map_cons, List.append_assoc, List.singleton_append]

theorem performMigrations_panic : ∀ (migrations : List Migration) (weight : Weight)
    (s : State X DispatchError), ¬ AllFit available weight (pending s.migrationDone migrations) →
    ∃ msg s', performMigrations available migrations weight s = (.panic msg, s')
  | [], weight, s, hnot => absurd (allFit_nil weight) hnot
  | m :: ms, weight, s, hnot => by
    unfold performMigrations
    unfold pending at hnot
    split_ifs at hnot with hdone
    · obtain ⟨msg, s', hrest⟩ := performMigrations_panic ms weight s hnot
      exact ⟨msg, s', by rw [Call.bind_ok (performMigration_done hdone), hrest]⟩
    · by_cases hfits : Fits available weight
      · obtain ⟨s₁, hstep, -, hdone₁⟩ := performMigration_ok hdone hfits
        rw [← hdone₁] at hnot
        obtain ⟨msg, s', hrest⟩ :=
          performMigrations_panic ms _ s₁ fun hall => hnot (allFit_cons.2 ⟨hfits, hall⟩)
        exact ⟨msg, s', by rw [Call.bind_ok hstep, hrest]⟩
      · obtain ⟨s₁, hstep⟩ := performMigration_panic hdone hfits
        exact ⟨_, s₁, Call.bind_panic hstep⟩

end Loop

/-- **Weight accounting.** For every list of migrations, every state and every available weight, an
upgrade subtracts without underflow and hands each migration its share of what the earlier ones
left, if and only if no migration begins after the earlier ones consumed more than the available
proof size and less than the available computation. -/
theorem accounts_iff (env : Env) (available : Weight) (s : State X DispatchError) :
    Accounts env available s ↔
      ∀ earlier m later, pending s.migrationDone env.migrationsList = earlier ++ m :: later →
        (spent available earlier).refTime < available.refTime →
        (spent available earlier).proofSize ≤ available.proofSize := by
  constructor
  · intro h
    by_contra hnot
    obtain ⟨msg, s', hpanic⟩ := performMigrations_panic env.migrationsList 0 s hnot
    have hcompletes := h.completes
    unfold performRuntimeUpgrades at hcompletes
    rw [Call.bind_panic hpanic] at hcompletes
    simp [Outcome.isPanic] at hcompletes
  · intro hall
    obtain ⟨weight, s', hloop, hcalls⟩ := performMigrations_ok env.migrationsList 0 s hall
    have hupgrade : performRuntimeUpgrades env available s =
        (.ok (weight.saturatingAdd (env.dbWeight.writes (.lit 1))), { s' with
          fullyUpgraded := true
          events := s'.events ++ [.runtimeUpgradeCompleted
            (weight.saturatingAdd (env.dbWeight.writes (.lit 1)))] }) := by
      unfold performRuntimeUpgrades
      rw [Call.bind_ok hloop]
      rfl
    refine ⟨by rw [hupgrade]; rfl, handOut available 0 _, handOut_fst 0 _, ?_,
      handOut_share 0 _⟩
    rw [hupgrade]
    exact hcalls

/-- Two migrations, of which the first consumes little computation and too much proof size. -/
def heavyProof : Env where
  migrationsList := [⟨[1], fun _ => ⟨.lit 10, .lit 2000⟩⟩, ⟨[2], fun _ => 0⟩]
  maxBlock := ⟨.lit 1000, .lit 1000⟩
  dbWeight := ⟨.lit 25, .lit 100⟩

/-- The second migration is never called: the subtraction before it underflows. -/
theorem heavyProof_underflows :
    (performRuntimeUpgrades heavyProof ⟨.lit 1000, .lit 1000⟩
      (.empty () : State Unit Empty)).1 = .panic "attempt to subtract with overflow" ∧
    ¬ Accounts heavyProof ⟨.lit 1000, .lit 1000⟩ (.empty () : State Unit Empty) := by
  have hpanic : (performRuntimeUpgrades heavyProof ⟨.lit 1000, .lit 1000⟩
      (.empty () : State Unit Empty)).1 = .panic "attempt to subtract with overflow" := by
    decide +kernel
  refine ⟨hpanic, fun h => ?_⟩
  have hcompletes := h.completes
  rw [hpanic] at hcompletes
  simp [Outcome.isPanic] at hcompletes

end Migrations

end Moonkit
