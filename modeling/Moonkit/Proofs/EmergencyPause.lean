import Moonkit.EmergencyParaXcm

/-!
# The emergency pause

The mode is latched: a gap of the relay number pauses, and only a resumption that goes through ends
that. So it says whether there was a gap since then, as long as the sum of the previous relay number
and the threshold is a number of 32 bits. Above that the sum panics or wraps, and a wrapped sum
pauses without a gap.
-/

namespace Moonkit

namespace EmergencyParaXcm

variable {Origin MessageOrigin Hash X E : Type} {C : Config Origin MessageOrigin Hash X E}
  {s s' : State X}

/-- The operation is a check that finds the relay number gone up by more than the threshold. -/
def IsGap (C : Config Origin MessageOrigin Hash X E) : Op Origin Hash X → Prop
  | .checkAssociatedRelayNumber current previous =>
    previous ≠ 0 ∧ (C.pausedThreshold.val : ℤ) < (current.val : ℤ) - previous.val
  | _ => False

/-- The event is a resumption that goes through. -/
def Resumes (e : RunEvent Origin Hash X E) : Prop :=
  (∃ origin, e.op = .pausedToNormal origin) ∧ e.answer = .ok ()

/-- There was a gap after the last resumption. -/
def GapSince (C : Config Origin MessageOrigin Hash X E) (h : List (RunEvent Origin Hash X E)) :
    Prop :=
  ∃ newer e older, h = newer ++ e :: older ∧ IsGap C e.op ∧ ∀ e' ∈ newer, ¬ Resumes e'

/-- The sum of a check with this operation neither panics nor wraps. -/
def SumFits (C : Config Origin MessageOrigin Hash X E) (op : Op Origin Hash X) : Prop :=
  ∀ current previous, op = .checkAssociatedRelayNumber current previous → previous ≠ 0 →
    previous.val + C.pausedThreshold.val ≤ 2 ^ 32 - 1

/-- The check that this pallet stands in for lets every block pass. -/
def Accepts (C : Config Origin MessageOrigin Hash X E) : Prop :=
  ∀ current previous rest, ∃ rest',
    C.checkAssociatedRelayNumber current previous rest = (.ok (), rest')

/-- The pause follows the relay gap: no check panics or takes a wrapped sum, the mode is paused
where there was a gap after the last resumption, every queue is then paused, and upgrades are only
authorized then. -/
structure FollowsGap (C : Config Origin MessageOrigin Hash X E)
    (h : List (RunEvent Origin Hash X E)) (s : State X) : Prop where
  checks : ∀ e ∈ h, ∀ current previous, e.op = .checkAssociatedRelayNumber current previous →
    e.answer = .ok () ∧ (previous ≠ 0 → ∃ limit : RelayChainBlockNumber,
      pausedLimit C previous e.before = (.ok limit, e.before) ∧
        limit.val = previous.val + C.pausedThreshold.val)
  mode : s.mode = .paused ↔ GapSince C h
  queue : s.mode = .paused → ∀ origin, isPaused C s origin = true
  upgrade : ∀ e ∈ h, ∀ origin codeHash, e.op = .fastAuthorizeUpgrade origin codeHash →
    e.answer = .ok () → e.before.mode = .paused

section History

variable {h : List (RunEvent Origin Hash X E)} {e : RunEvent Origin Hash X E}

theorem not_gapSince_nil : ¬ GapSince C ([] : List (RunEvent Origin Hash X E)) := by
  rintro ⟨newer, e, older, heq, -⟩
  simp at heq

theorem gapSince_cons : GapSince C (e :: h) ↔ IsGap C e.op ∨ ¬ Resumes e ∧ GapSince C h := by
  constructor
  · rintro ⟨_ | ⟨e', newer⟩, e'', older, heq, hgap, hnot⟩
    · rw [List.nil_append, List.cons.injEq] at heq
      rw [heq.1]
      exact .inl hgap
    · rw [List.cons_append, List.cons.injEq] at heq
      obtain ⟨rfl, rfl⟩ := heq
      obtain ⟨hfirst, hrest⟩ := List.forall_mem_cons.1 hnot
      exact .inr ⟨hfirst, newer, e'', older, rfl, hgap, hrest⟩
  · rintro (hgap | ⟨hnot, newer, e', older, rfl, hgap, hrest⟩)
    · exact ⟨[], e, h, rfl, hgap, by simp⟩
    · exact ⟨e :: newer, e', older, rfl, hgap, List.forall_mem_cons.2 ⟨hnot, hrest⟩⟩

end History

section Steps

theorem onRest_ok {ε : Type} {x : Call X ε Unit} {rest : X} (h : x s.rest = (.ok (), rest)) :
    onRest x s = (.ok (), { s with rest := rest }) := Call.on_apply h

theorem pausedLimit_fits {previous : RelayChainBlockNumber}
    (hfits : previous.val + C.pausedThreshold.val ≤ 2 ^ 32 - 1) :
    pausedLimit C previous s = (.ok ⟨previous.val + C.pausedThreshold.val, hfits⟩, s) := by
  have hadd : previous.checkedAdd C.pausedThreshold =
      some ⟨previous.val + C.pausedThreshold.val, hfits⟩ := Uint.checkedAdd_eq_some.2 rfl
  unfold pausedLimit
  rw [hadd]
  rfl

/-- A check whose sum fits is answered, and pauses at a gap. -/
theorem check_fits (hacc : Accepts C) {current previous : RelayChainBlockNumber}
    (hfits : previous ≠ 0 → previous.val + C.pausedThreshold.val ≤ 2 ^ 32 - 1) :
    ∃ s', checkAssociatedRelayNumber C current previous s = (.ok (), s') ∧
      (IsGap C (.checkAssociatedRelayNumber current previous : Op Origin Hash X) ∧
          s'.mode = .paused ∨
        ¬ IsGap C (.checkAssociatedRelayNumber current previous : Op Origin Hash X) ∧
          s'.mode = s.mode) := by
  obtain ⟨rest', hrest⟩ := hacc current previous s.rest
  unfold checkAssociatedRelayNumber
  rw [Call.bind_ok (onRest_ok hrest)]
  by_cases hzero : previous = 0
  · rw [if_neg (not_not.2 hzero)]
    exact ⟨_, rfl, .inr ⟨fun hgap => hgap.1 hzero, rfl⟩⟩
  · rw [if_pos hzero, Call.bind_ok (pausedLimit_fits (hfits hzero))]
    by_cases hlt : previous.val + C.pausedThreshold.val < current.val
    · rw [if_pos (Uint.lt_iff_val.2 hlt)]
      exact ⟨_, rfl, .inl ⟨⟨hzero, by omega⟩, rfl⟩⟩
    · rw [if_neg (fun h => hlt (Uint.lt_iff_val.1 h))]
      refine ⟨_, rfl, .inr ⟨fun hgap => hlt ?_, rfl⟩⟩
      have := hgap.2
      omega

theorem pausedToNormal_eq_ok {origin : Origin} {u : Unit}
    (h : pausedToNormal C origin s = (.ok u, s')) : s.mode = .paused ∧ s'.mode = .normal := by
  obtain ⟨-, h⟩ := Call.ensure_bind_eq_ok.1 h
  rw [Call.get_bind] at h
  obtain ⟨hpaused, h⟩ := Call.ensure_bind_eq_ok.1 h
  obtain ⟨-, rfl⟩ := Prod.mk.inj h
  exact ⟨hpaused, rfl⟩

theorem fastAuthorizeUpgrade_eq_ok {origin : Origin} {codeHash : Hash} {u : Unit}
    (h : fastAuthorizeUpgrade C origin codeHash s = (.ok u, s')) :
    s.mode = .paused ∧ s'.mode = s.mode := by
  obtain ⟨-, h⟩ := Call.ensure_bind_eq_ok.1 h
  rw [Call.get_bind] at h
  obtain ⟨hpaused, h⟩ := Call.ensure_bind_eq_ok.1 h
  obtain ⟨rest, -, rfl⟩ := Call.on_eq_ok.1 ((Call.handle_eq_ok (by simp [Call.err])).1 h)
  exact ⟨hpaused, rfl⟩

variable {op : Op Origin Hash X}

theorem not_resumes (hop : ∀ origin, op ≠ .pausedToNormal origin) :
    ¬ Resumes ((machine C).event s op) := by
  rintro ⟨⟨origin, horigin⟩, -⟩
  exact hop origin horigin

theorem exec_mode (hacc : Accepts C) (hfits : SumFits C op) (s : State X) :
    IsGap C op ∧ ((machine C).exec s op).2.mode = .paused ∨
      ¬ IsGap C op ∧ Resumes ((machine C).event s op) ∧
        ((machine C).exec s op).2.mode = .normal ∨
      ¬ IsGap C op ∧ ¬ Resumes ((machine C).event s op) ∧
        ((machine C).exec s op).2.mode = s.mode := by
  cases op with
  | checkAssociatedRelayNumber current previous =>
    obtain ⟨s', hrun, hcases⟩ := check_fits (s := s) hacc (hfits current previous rfl)
    have hexec : (machine C).exec s (.checkAssociatedRelayNumber current previous) =
        (.ok (), s') := Call.transactional_ok hrun
    rw [hexec]
    exact hcases.imp id fun hsame => .inr ⟨hsame.1, not_resumes (by simp), hsame.2⟩
  | pausedToNormal origin =>
    refine .inr ?_
    rcases Call.transactional_cases (pausedToNormal C origin) s with
      ⟨u, s', hrun, htrans⟩ | ⟨hno, hsame⟩
    · have hexec : (machine C).exec s (.pausedToNormal origin) = (.ok (), s') := htrans
      refine .inl ⟨id, ⟨⟨origin, rfl⟩, by rw [Machine.event, hexec]⟩, ?_⟩
      rw [hexec]
      exact (pausedToNormal_eq_ok hrun).2
    · refine .inr ⟨id, fun hresumes => ?_, congrArg State.mode hsame⟩
      exact hno () _ (Call.transactional_eq_ok.1 (Prod.ext hresumes.2 rfl))
  | fastAuthorizeUpgrade origin codeHash =>
    refine .inr (.inr ⟨id, not_resumes (by simp), ?_⟩)
    rcases Call.transactional_cases (fastAuthorizeUpgrade C origin codeHash) s with
      ⟨u, s', hrun, htrans⟩ | ⟨-, hsame⟩
    · have hexec : (machine C).exec s (.fastAuthorizeUpgrade origin codeHash) = (.ok (), s') :=
        htrans
      rw [hexec]
      exact (fastAuthorizeUpgrade_eq_ok hrun).2
    · exact congrArg State.mode hsame
  | elsewhere rest =>
    exact .inr (.inr ⟨id, not_resumes (by simp), rfl⟩)

end Steps

section Runs

variable {h : List (RunEvent Origin Hash X E)}

theorem mode_of_run (hacc : Accepts C) (hr : (machine C).Run (fun _ _ _ => True) h s) :
    (∀ e ∈ h, SumFits C e.op) → (s.mode = .paused ↔ GapSince C h) := by
  induction hr with
  | start hg =>
    intro _
    refine iff_of_false (fun hpaused => ?_) not_gapSince_nil
    rw [hg] at hpaused
    cases hpaused
  | @step h s op hr _ ih =>
    intro hfits
    obtain ⟨hfirst, hrest⟩ := List.forall_mem_cons.1 hfits
    have hop : SumFits C op := hfirst
    rw [gapSince_cons]
    show ((machine C).exec s op).2.mode = .paused ↔
      IsGap C op ∨ ¬ Resumes ((machine C).event s op) ∧ GapSince C h
    rcases exec_mode hacc hop s with ⟨hgap, hmode⟩ | ⟨hgap, hres, hmode⟩ | ⟨hgap, hres, hmode⟩
    · exact iff_of_true hmode (.inl hgap)
    · refine iff_of_false (fun hpaused => ?_) fun hsince => ?_
      · rw [hmode] at hpaused
        cases hpaused
      · exact hsince.elim hgap fun hlater => hlater.1 hres
    · rw [hmode, ih hrest]
      exact ⟨fun hsince => .inr ⟨hres, hsince⟩, fun hsince => (hsince.resolve_left hgap).2⟩

theorem isPaused_of_paused (hpaused : s.mode = .paused) (origin : MessageOrigin) :
    isPaused C s origin = true := by
  unfold isPaused
  rw [if_neg (by simp [hpaused])]

/-- **Emergency pause.** Along every run from the normal mode in which the check it stands in for
lets blocks pass, the pause follows the relay gap if and only if the sum of each check, of a
previous relay number that is not zero and the threshold, is a number of 32 bits. -/
theorem follows_gap_iff (hacc : Accepts C) (hr : (machine C).Run (fun _ _ _ => True) h s) :
    FollowsGap C h s ↔ ∀ e ∈ h, SumFits C e.op := by
  constructor
  · intro hfollows e he current previous hop hzero
    obtain ⟨limit, -, hlimit⟩ := (hfollows.checks e he current previous hop).2 hzero
    have hmax := limit.le_max
    omega
  · intro hfits
    refine ⟨fun e he current previous hop => ?_, mode_of_run hacc hr hfits,
      fun hpaused origin => isPaused_of_paused hpaused origin,
      fun e he origin codeHash hop hok => ?_⟩
    · obtain ⟨-, -, -, heq⟩ := hr.mem_event he
      refine ⟨?_, fun hzero => ⟨_, pausedLimit_fits (hfits e he current previous hop hzero), rfl⟩⟩
      obtain ⟨s', hrun, -⟩ := check_fits (s := e.before) hacc (hfits e he current previous hop)
      have hexec : (machine C).exec e.before e.op = (.ok (), s') := by
        rw [hop]
        exact Call.transactional_ok hrun
      rw [heq, Machine.event, hexec]
    · obtain ⟨-, -, -, heq⟩ := hr.mem_event he
      have hexec : (fastAuthorizeUpgrade C origin codeHash).transactional e.before =
          (.ok (), e.after) := by
        refine Prod.ext ?_ ?_
        · rw [← hok, heq, hop]
          rfl
        · rw [heq, hop]
          rfl
      exact (fastAuthorizeUpgrade_eq_ok (Call.transactional_eq_ok.1 hexec)).1

end Runs

/-- The mock runtime: no other check, a threshold of five, and a root that may do everything. -/
def testConfig (overflowChecks : Bool) : Config Bool Unit ℕ (Option ℕ) String where
  checkAssociatedRelayNumber _ _ := pure ()
  queuePausedQuery _ _ := false
  pausedThreshold := .lit 5
  fastAuthorizeUpgradeOrigin root := root
  pausedToNormalOrigin root := root
  authorizeUpgrade codeHash := Call.modify fun _ => some codeHash
  overflowChecks := overflowChecks

theorem testConfig_accepts (overflowChecks : Bool) : Accepts (testConfig overflowChecks) :=
  fun _ _ rest => ⟨rest, rfl⟩

/-- The history and the state of these operations, from the normal mode. -/
def testOps (overflowChecks : Bool) (ops : List (Op Bool ℕ (Option ℕ))) :
    List (RunEvent Bool ℕ (Option ℕ) String) × State (Option ℕ) :=
  (machine (testConfig overflowChecks)).replay [] ⟨.normal, [], none⟩ ops

theorem run_testOps (overflowChecks : Bool) (ops : List (Op Bool ℕ (Option ℕ))) :
    (machine (testConfig overflowChecks)).Run (fun _ _ _ => True) (testOps overflowChecks ops).1
      (testOps overflowChecks ops).2 :=
  Machine.run_replay_all ops (.start rfl)

/-- A gap of five, one of six, an upgrade, a resumption without a right to it, and one by root. -/
def testSample : List (Op Bool ℕ (Option ℕ)) :=
  [.checkAssociatedRelayNumber (.lit 6) (.lit 1), .checkAssociatedRelayNumber (.lit 12) (.lit 6),
    .fastAuthorizeUpgrade true 77, .pausedToNormal false]

theorem follows_gap_sample :
    (testOps true testSample).2.mode = .paused ∧ (testOps true testSample).2.rest = some 77 ∧
      FollowsGap (testConfig true) (testOps true testSample).1 (testOps true testSample).2 := by
  refine ⟨by decide +kernel, by decide +kernel,
    (follows_gap_iff (testConfig_accepts true) (run_testOps true _)).2 ?_⟩
  have hfits : ∀ op ∈ testSample, SumFits (testConfig true) op := by
    intro op hop current previous heq hzero
    simp only [testSample, List.mem_cons, List.not_mem_nil, or_false] at hop
    rcases hop with rfl | rfl | rfl | rfl <;> cases heq <;> decide
  intro e he
  refine hfits e.op ?_
  simp only [testOps, testSample, Machine.replay, List.mem_cons, List.not_mem_nil, or_false] at he
  rcases he with rfl | rfl | rfl | rfl <;> simp [testSample, Machine.event]

/-- The relay number goes up by two, close to the largest one. -/
def testHigh : Op Bool ℕ (Option ℕ) :=
  .checkAssociatedRelayNumber (.lit (2 ^ 32 - 1)) (.lit (2 ^ 32 - 3))

/-- With overflow checks the block panics; without them XCM is paused. -/
theorem high_number_breaks_pause :
    checkAssociatedRelayNumber (testConfig true) (.lit (2 ^ 32 - 1)) (.lit (2 ^ 32 - 3))
        ⟨.normal, [], none⟩ =
      (.panic "attempt to add with overflow", ⟨.normal, [], none⟩) ∧
    (testOps false [testHigh]).2.mode = .paused ∧
    ¬ GapSince (testConfig false) (testOps false [testHigh]).1 ∧
    ¬ FollowsGap (testConfig true) (testOps true [testHigh]).1 (testOps true [testHigh]).2 ∧
    ¬ FollowsGap (testConfig false) (testOps false [testHigh]).1 (testOps false [testHigh]).2 := by
  have hpaused : (testOps false [testHigh]).2.mode = .paused := by decide +kernel
  have hnot : ¬ GapSince (testConfig false) (testOps false [testHigh]).1 := by
    show ¬ GapSince (testConfig false) [_]
    rw [gapSince_cons]
    rintro (⟨-, hgap⟩ | ⟨-, hgap⟩)
    · exact absurd hgap (by decide)
    · exact not_gapSince_nil hgap
  refine ⟨rfl, hpaused, hnot, fun hfollows => ?_, fun hfollows => hnot (hfollows.mode.1 hpaused)⟩
  obtain ⟨hok, -⟩ := hfollows.checks _ List.mem_cons_self _ _ rfl
  exact absurd hok (by decide +kernel)

end EmergencyParaXcm

end Moonkit
