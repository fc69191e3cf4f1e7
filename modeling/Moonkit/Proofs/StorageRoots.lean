import Moonkit.RelayStorageRoots

/-!
# Relay storage roots form a window

The stored roots are those of the last `MaxStorageRoots` insertions, whatever numbers the relay
chain states have. The length of the list is compared as a `u32`, so that with a limit of
`u32::MAX` nothing is ever removed: then, and only then, the list loses a key once all numbers have
been presented.
-/

namespace Moonkit

namespace RelayStorageRoots

variable {maxStorageRoots : U32} {s : State maxStorageRoots} {relayState : RelayChainState}
  {h : List (RunEvent maxStorageRoots)}

section Step

theorem setRelayStorageRoot_stored
    (hs : (s.relayStorageRoot.lookup relayState.number).isSome) :
    setRelayStorageRoot relayState s = (.ok (), s) := by
  unfold setRelayStorageRoot
  rw [Call.get_bind, if_pos hs]
  rfl

/-- The storage after an insertion. -/
def State.inserted (s : State maxStorageRoots) (relayState : RelayChainState) :
    State maxStorageRoots where
  relayStorageRoot :=
    ((popOldest maxStorageRoots (s.relayStorageRootKeys.val ++ [relayState.number])).1).elim
      (s.relayStorageRoot.insert relayState.number relayState.stateRoot)
      (s.relayStorageRoot.insert relayState.number relayState.stateRoot).erase
  relayStorageRootKeys := .truncateFrom
    (popOldest maxStorageRoots (s.relayStorageRootKeys.val ++ [relayState.number])).2

theorem setRelayStorageRoot_new (hs : s.relayStorageRoot.lookup relayState.number = none) :
    setRelayStorageRoot relayState s = (.ok (), s.inserted relayState) := by
  unfold setRelayStorageRoot State.inserted
  rw [Call.get_bind, if_neg (by simp [hs])]
  rcases hpop : popOldest maxStorageRoots (s.relayStorageRootKeys.val ++ [relayState.number])
    with ⟨_ | firstKey, keys⟩
  · simp only [hpop, Call.modify_bind]
    rfl
  · simp only [hpop, Call.modify_bind]
    rfl

/-- A state whose number is stored is ignored, and any other is inserted. -/
theorem exec_cases (s : State maxStorageRoots) (relayState : RelayChainState) :
    (s.relayStorageRoot.lookup relayState.number = none ∧
        (machine maxStorageRoots).exec s relayState = (.ok (), s.inserted relayState)) ∨
      (s.relayStorageRoot.lookup relayState.number).isSome ∧
        (machine maxStorageRoots).exec s relayState = (.ok (), s) := by
  rcases hs : s.relayStorageRoot.lookup relayState.number with _ | root
  · exact .inl ⟨rfl, setRelayStorageRoot_new hs⟩
  · exact .inr ⟨rfl, setRelayStorageRoot_stored (by rw [hs]; rfl)⟩

/-- Nothing is removed up to the limit. -/
theorem popOldest_room {keys : List U32} (hroom : keys.length ≤ maxStorageRoots.val) :
    popOldest maxStorageRoots keys = (none, keys) := by
  have hle : ¬ maxStorageRoots < lenU32 keys := by
    rw [Uint.lt_iff_val]
    exact not_lt.2 ((min_le_left _ _).trans hroom)
  rw [popOldest, if_neg hle]

/-- Above the limit the oldest is removed, unless the limit is `u32::MAX`. -/
theorem popOldest_full {keys : List U32} (hfull : maxStorageRoots.val < keys.length)
    (hlimit : maxStorageRoots.val < 2 ^ 32 - 1) :
    popOldest maxStorageRoots keys = (keys.head?, keys.tail) := by
  have hlt : maxStorageRoots < lenU32 keys := Uint.lt_iff_val.2 (lt_min hfull hlimit)
  rw [popOldest, if_pos hlt]

/-- With a limit of `u32::MAX` nothing is ever removed. -/
theorem popOldest_max {keys : List U32} (hlimit : maxStorageRoots.val = 2 ^ 32 - 1) :
    popOldest maxStorageRoots keys = (none, keys) := by
  have hle : ¬ maxStorageRoots < lenU32 keys := by
    rw [Uint.lt_iff_val, hlimit]
    exact not_lt.2 (min_le_right _ _)
  rw [popOldest, if_neg hle]

end Step

section History

/-- The relay chain states whose number was not stored when they came, oldest first. -/
def insertions (h : List (RunEvent maxStorageRoots)) : List (U32 × H256) :=
  ((h.filter fun e => (e.before.relayStorageRoot.lookup e.op.number).isNone).map
    fun e => (e.op.number, e.op.stateRoot)).reverse

/-- The numbers of all relay chain states, oldest first. -/
def presented (h : List (RunEvent maxStorageRoots)) : List U32 :=
  (h.map fun e => e.op.number).reverse

theorem insertions_stored (hs : (s.relayStorageRoot.lookup relayState.number).isSome) :
    insertions ((machine maxStorageRoots).event s relayState :: h) = insertions h := by
  simp [insertions, Machine.event, Option.ne_none_iff_isSome.2 hs]

theorem insertions_new (hs : s.relayStorageRoot.lookup relayState.number = none) :
    insertions ((machine maxStorageRoots).event s relayState :: h) =
      insertions h ++ [(relayState.number, relayState.stateRoot)] := by
  simp [insertions, Machine.event, hs]

theorem presented_cons : presented ((machine maxStorageRoots).event s relayState :: h) =
    presented h ++ [relayState.number] := by
  simp [presented, Machine.event]

theorem insertions_sublist (h : List (RunEvent maxStorageRoots)) :
    ((insertions h).map Prod.fst).Sublist (presented h) := by
  unfold insertions presented
  rw [List.map_reverse, List.map_map, List.reverse_sublist]
  exact (List.filter_sublist).map _

end History

section Window

/-- The storage is the window of the insertions, and no key was lost on the way. -/
structure Windowed (h : List (RunEvent maxStorageRoots)) (s : State maxStorageRoots) : Prop where
  holds : Window.Holds maxStorageRoots.val (insertions h) s.relayStorageRoot
    s.relayStorageRootKeys.val
  fits : ∀ e ∈ h, e.before.relayStorageRoot.lookup e.op.number = none →
    (popOldest maxStorageRoots (e.before.relayStorageRootKeys.val ++ [e.op.number])).2.length ≤
      maxStorageRoots.val

/-- The limit is not `u32::MAX`, or a number has not been presented yet. -/
def Bounded (h : List (RunEvent maxStorageRoots)) : Prop :=
  maxStorageRoots.val < 2 ^ 32 - 1 ∨ ∃ n, n ∉ presented h

theorem Bounded.of_cons (hb : Bounded ((machine maxStorageRoots).event s relayState :: h)) :
    Bounded h := by
  refine hb.imp_right fun ⟨n, hn⟩ => ⟨n, fun hmem => hn ?_⟩
  rw [presented_cons]
  exact List.mem_append_left _ hmem

/-- Where the window is full, the limit is below `u32::MAX`: with a limit of `u32::MAX` all numbers
but the missing one are fewer. -/
theorem limit_of_full (hw : Windowed h s) (hs : s.relayStorageRoot.lookup relayState.number = none)
    (hb : Bounded ((machine maxStorageRoots).event s relayState :: h))
    (hfull : maxStorageRoots.val < (s.relayStorageRootKeys.val ++ [relayState.number]).length) :
    maxStorageRoots.val < 2 ^ 32 - 1 := by
  rcases hb with hb | ⟨n, hn⟩
  · exact hb
  · rw [presented_cons, List.mem_append, not_or, List.mem_singleton] at hn
    have hkeys : n ∉ s.relayStorageRootKeys.val ++ [relayState.number] := by
      rw [List.mem_append, List.mem_singleton, not_or]
      refine ⟨fun hmem => hn.1 ?_, hn.2⟩
      rw [hw.holds.keys_eq] at hmem
      obtain ⟨entry, hentry, rfl⟩ := List.mem_map.1 hmem
      exact (insertions_sublist h).subset (List.mem_map_of_mem (List.mem_of_mem_drop hentry))
    have hlength := Uint.length_le_of_nodup (List.nodup_cons.2 ⟨hkeys, hw.holds.nodup_concat hs⟩)
    rw [List.length_cons] at hlength
    omega

theorem windowed_insert (hw : Windowed h s)
    (hs : s.relayStorageRoot.lookup relayState.number = none)
    (hb : Bounded ((machine maxStorageRoots).event s relayState :: h)) :
    Windowed ((machine maxStorageRoots).event s relayState :: h) (s.inserted relayState) := by
  have hlength : (s.relayStorageRootKeys.val ++ [relayState.number]).length =
      s.relayStorageRootKeys.val.length + 1 := by simp
  have hle := s.relayStorageRootKeys.length_le
  by_cases hroom : (s.relayStorageRootKeys.val ++ [relayState.number]).length ≤ maxStorageRoots.val
  · have hpop := popOldest_room hroom
    refine ⟨?_, ?_⟩
    · rw [insertions_new hs, State.inserted, hpop]
      simp only [BoundedVec.truncateFrom_val hroom]
      exact hw.holds.push hs (hlength ▸ hroom)
    · intro e he hnew
      rcases List.mem_cons.1 he with rfl | he
      · exact (congrArg (fun p => p.2.length) hpop).trans_le hroom
      · exact hw.fits e he hnew
  · rw [not_le] at hroom
    have hpop := popOldest_full hroom (limit_of_full hw hs hb hroom)
    obtain ⟨oldest, rest, hrest⟩ : ∃ oldest rest,
        s.relayStorageRootKeys.val ++ [relayState.number] = oldest :: rest :=
      List.exists_cons_of_ne_nil (by simp)
    have hfits : rest.length ≤ maxStorageRoots.val := by
      rw [hrest, List.length_cons] at hlength
      omega
    rw [hrest, List.head?_cons, List.tail_cons] at hpop
    refine ⟨?_, ?_⟩
    · rw [insertions_new hs, State.inserted, hrest, hpop]
      simp only [BoundedVec.truncateFrom_val hfits]
      exact hw.holds.push_evict hs (hlength ▸ hroom) hrest
    · intro e he hnew
      rcases List.mem_cons.1 he with rfl | he
      · show (popOldest maxStorageRoots
          (s.relayStorageRootKeys.val ++ [relayState.number])).2.length ≤ maxStorageRoots.val
        rw [hrest, hpop]
        exact hfits
      · exact hw.fits e he hnew

theorem windowed_step (hw : Windowed h s)
    (hb : Bounded ((machine maxStorageRoots).event s relayState :: h)) :
    Windowed ((machine maxStorageRoots).event s relayState :: h)
      ((machine maxStorageRoots).exec s relayState).2 := by
  rcases exec_cases s relayState with ⟨hs, hexec⟩ | ⟨hsome, hexec⟩ <;> rw [hexec]
  · exact windowed_insert hw hs hb
  · refine ⟨?_, ?_⟩
    · rw [insertions_stored hsome]
      exact hw.holds
    · intro e he hnew
      rcases List.mem_cons.1 he with rfl | he
      · exact absurd (hnew ▸ hsome) (by simp)
      · exact hw.fits e he hnew

theorem windowed_of_run (hr : Run maxStorageRoots h s) (hb : Bounded h) : Windowed h s := by
  induction hr with
  | start hg =>
    obtain rfl := hg
    exact ⟨Window.holds_nil _, by simp⟩
  | step hr _ ih => exact windowed_step (ih hb.of_cons) hb

end Window

/-- The stored roots are an exact window of the insertions. -/
structure ExactWindow (h : List (RunEvent maxStorageRoots)) (s : State maxStorageRoots) :
    Prop where
  domain : ∀ n, (s.relayStorageRoot.lookup n).isSome ↔ n ∈ s.relayStorageRootKeys.val
  nodup : s.relayStorageRootKeys.val.Nodup
  length_le : s.relayStorageRootKeys.val.length ≤ maxStorageRoots.val
  /-- What is handed to `truncate_from` is never above the limit. -/
  fits : ∀ e ∈ h, e.before.relayStorageRoot.lookup e.op.number = none →
    (popOldest maxStorageRoots (e.before.relayStorageRootKeys.val ++ [e.op.number])).2.length ≤
      maxStorageRoots.val
  newest : s.relayStorageRootKeys.val =
    ((insertions h).map Prod.fst).rtake (min maxStorageRoots.val (insertions h).length)
  ascending : (presented h).Pairwise (· ≤ ·) → s.relayStorageRootKeys.val.Pairwise (· < ·)
  latest : ∀ n root, s.relayStorageRoot.lookup n = some root →
    ∃ before after, insertions h = before ++ (n, root) :: after ∧ n ∉ after.map Prod.fst

theorem Windowed.exact (hw : Windowed h s) : ExactWindow h s where
  domain n := hw.holds.mem_keys.symm
  nodup := hw.holds.nodup
  length_le := s.relayStorageRootKeys.length_le
  fits := hw.fits
  newest := by
    rw [hw.holds.keys_eq, List.rtake, List.rtake, List.map_drop, List.length_map]
    congr 1
    omega
  ascending hsorted := by
    have hsub : s.relayStorageRootKeys.val.Sublist (presented h) := by
      rw [hw.holds.keys_eq]
      exact ((List.drop_sublist _ _).map _).trans (insertions_sublist h)
    refine ((hsorted.sublist hsub).and hw.holds.nodup).imp ?_
    rintro a b ⟨hle, hne⟩
    exact lt_of_le_of_ne hle hne
  latest n root hroot := hw.holds.latest hroot

/-- With a limit of `u32::MAX` every number presented stays stored. -/
theorem stored_of_max (hlimit : maxStorageRoots.val = 2 ^ 32 - 1) (hr : Run maxStorageRoots h s) :
    ∀ n ∈ presented h, (s.relayStorageRoot.lookup n).isSome := by
  induction hr with
  | start _ => simp [presented]
  | @step h s relayState hr _ ih =>
    intro n hn
    rw [presented_cons, List.mem_append, List.mem_singleton] at hn
    rcases exec_cases s relayState with ⟨hs, hexec⟩ | ⟨hsome, hexec⟩ <;> rw [hexec]
    · rw [State.inserted, popOldest_max hlimit]
      by_cases hne : n = relayState.number
      · subst hne
        simp
      · simp only [Option.elim_none, Finmap.lookup_insert_of_ne _ hne]
        exact ih n (hn.resolve_right hne)
    · rcases hn with hn | rfl
      · exact ih n hn
      · exact hsome

/-- With a limit of `u32::MAX` the list is one short of all numbers. -/
theorem not_exactWindow_of_all (hlimit : maxStorageRoots.val = 2 ^ 32 - 1)
    (hr : Run maxStorageRoots h s) (hall : ∀ n, n ∈ presented h) : ¬ ExactWindow h s := by
  intro hw
  have hmem (n : U32) : n ∈ s.relayStorageRootKeys.val :=
    (hw.domain n).1 (stored_of_max hlimit hr n (hall n))
  have hmany := Uint.le_length_of_forall_mem hmem
  have hfew := hw.length_le
  omega

/-- **An exact bounded window.** For every limit and every sequence of relay chain states, the
stored roots are an exact window of the insertions if and only if the limit is below `u32::MAX` or
some number has not been presented. -/
theorem exactWindow_iff (hr : Run maxStorageRoots h s) :
    ExactWindow h s ↔ maxStorageRoots.val < 2 ^ 32 - 1 ∨ ∃ n, n ∉ presented h := by
  constructor
  · intro hw
    by_contra hnot
    push Not at hnot
    obtain ⟨hlimit, hall⟩ := hnot
    exact not_exactWindow_of_all (le_antisymm maxStorageRoots.le_max hlimit) hr hall hw
  · intro hb
    exact (windowed_of_run hr hb).exact

/-- The history and the state after these relay chain states. -/
def present (maxStorageRoots : U32) (relayStates : List RelayChainState) :
    List (RunEvent maxStorageRoots) × State maxStorageRoots :=
  (machine maxStorageRoots).replay [] ⟨∅, ∅⟩ relayStates

theorem run_present (maxStorageRoots : U32) (relayStates : List RelayChainState) :
    Run maxStorageRoots (present maxStorageRoots relayStates).1
      (present maxStorageRoots relayStates).2 :=
  Machine.run_replay_all relayStates (.start rfl)

theorem presented_replay (relayStates : List RelayChainState) (s : State maxStorageRoots) :
    presented ((machine maxStorageRoots).replay h s relayStates).1 =
      presented h ++ relayStates.map RelayChainState.number := by
  induction relayStates generalizing h s with
  | nil => simp [Machine.replay]
  | cons relayState relayStates ih =>
    rw [Machine.replay, ih, presented_cons, List.map_cons, List.append_assoc]
    rfl

theorem presented_present (relayStates : List RelayChainState) :
    presented (present maxStorageRoots relayStates).1 = relayStates.map RelayChainState.number :=
  presented_replay relayStates _

/-- The relay blocks 250 to 259 with a limit of four, and block 250 once more. -/
def testBlocks : List RelayChainState :=
  [.lit 250, .lit 251, .lit 252, .lit 253, .lit 254, .lit 255, .lit 256, .lit 257, .lit 258,
    .lit 259, .lit 250].map fun n => ⟨n, .replicate 32 0⟩

theorem exactWindow_test :
    (present (.lit 4) testBlocks).2.relayStorageRootKeys.val =
      [.lit 257, .lit 258, .lit 259, .lit 250] ∧
    ExactWindow (present (.lit 4) testBlocks).1 (present (.lit 4) testBlocks).2 :=
  ⟨by decide +kernel, (exactWindow_iff (run_present _ testBlocks)).2 (.inl (by decide))⟩

/-- Every relay block number, in order. -/
def allBlocks : List RelayChainState :=
  (List.finRange (2 ^ 32)).map fun n => ⟨⟨n.val, Nat.le_pred_of_lt n.isLt⟩, .replicate 32 0⟩

theorem mem_allBlocks (n : U32) : ⟨n, .replicate 32 0⟩ ∈ allBlocks :=
  List.mem_map.2 ⟨⟨n.val, Nat.lt_succ_of_le n.le_max⟩, List.mem_finRange _, rfl⟩

/-- With a limit of `u32::MAX`, the last of all numbers is stored and missing in the list. -/
theorem not_exactWindow_allBlocks :
    Run (.lit (2 ^ 32 - 1)) (present _ allBlocks).1 (present _ allBlocks).2 ∧
    ¬ ExactWindow (present (.lit (2 ^ 32 - 1)) allBlocks).1
      (present (.lit (2 ^ 32 - 1)) allBlocks).2 := by
  have hrun := run_present (.lit (2 ^ 32 - 1)) allBlocks
  refine ⟨hrun, not_exactWindow_of_all rfl hrun fun n => ?_⟩
  rw [presented_present]
  exact List.mem_map.2 ⟨⟨n, .replicate 32 0⟩, mem_allBlocks n, rfl⟩

end RelayStorageRoots

end Moonkit
