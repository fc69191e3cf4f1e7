import Moonkit.Proofs.BatchTrace
import Moonkit.PrecompilesMock

/-!
# The modes of a batch

All modes start with the same steps, those of the entries up to and including the first that does
not succeed (`Common`). After it only `batchSome` goes on, and what it logs there are later entries
(`finish_logged`): the entry that failed is not among those it logs as succeeded, so `batchAll`
answers exactly where all of them are.
-/

namespace Moonkit

namespace Batch

open Precompile

section Runs

variable {H : Type} (cfg : Config) (hd : Handle H) (logCost : U64)

/-- The entries up to and including the first that does not succeed, with the steps for them and the
gas they leave. -/
inductive Common (gas : U64) :
    Outcome PrecompileFailure (Option Attempt × List Entry) → List Entry → List Step → Prop
  | nil : Common gas (.ok (none, [])) [] []
  | success {e : Entry} {es : List Entry} {output : List UInt8} {d t : List Step}
      {r : Outcome PrecompileFailure (Option Attempt × List Entry)} :
      Handled cfg hd logCost e (.called .succeed output) d → Common gas r es t →
      Common gas r (e :: es) (d ++ t)
  | failure {e : Entry} {es : List Entry} {a : Attempt} {d : List Step} :
      Tried cfg hd logCost e gas (.ok a) d → a.succeeded = false →
      Common gas (.ok (some a, es)) (e :: es) d
  | broken {e : Entry} {es : List Entry} {f : PrecompileFailure} {d : List Step} :
      Tried cfg hd logCost e gas (.err f) d → Common gas (.err f) (e :: es) d

/-- The indices of the logs, in the order they were emitted. -/
def loggedIndices (t : List Step) : List ℕ := (t.filterMap Step.log?).map SubcallLog.index

variable {cfg hd logCost}

theorem loggedIndices_append (t d : List Step) :
    loggedIndices (t ++ d) = loggedIndices t ++ loggedIndices d := by
  simp only [loggedIndices, List.filterMap_append, List.map_append]

theorem mem_loggedIndices {t : List Step} {g : U64} {log : SubcallLog} (h : .logged g log ∈ t) :
    log.index ∈ loggedIndices t :=
  List.mem_map_of_mem (List.mem_filterMap.2 ⟨_, h, rfl⟩)

theorem outcomeLog_index {index : ℕ} {reason : ExitReason} {log : SubcallLog}
    (h : outcomeLog hd index reason = some log) : log.index = index := by
  cases reason with
  | fatal f => simp [outcomeLog] at h
  | _ =>
    simp only [outcomeLog, Option.some.injEq] at h
    rw [← h]
    rfl

theorem Handled.loggedIndices_eq {e : Entry} {a : Attempt} {d : List Step}
    (h : Handled cfg hd logCost e a d) : loggedIndices d = [e.index] := by
  cases h with
  | unpaid _ => rfl
  | called _ hlog =>
    simp only [loggedIndices, Step.log?, List.filterMap_cons, List.filterMap_nil, List.map_cons,
      List.map_nil, outcomeLog_index hlog]

theorem succeeded_of_handled {e : Entry} {a : Attempt} {d : List Step} {g : U64} {i : ℕ}
    (h : Handled cfg hd logCost e a d)
    (hmem : .logged g (logSubcallSucceeded hd.codeAddress i) ∈ d) : a.succeeded = true := by
  cases h with
  | unpaid _ => simp [logSubcallFailed, logSubcallSucceeded] at hmem
  | @called g g₁ g₂ gas reason output log hg hlog =>
    have hsucc : logSubcallSucceeded hd.codeAddress i = log := by
      simp only [List.mem_cons, reduceCtorEq, Step.logged.injEq, List.not_mem_nil, or_false,
        false_or] at hmem
      exact hmem.2
    cases reason with
    | succeed => rfl
    | _ => simp [outcomeLog, ← hsucc, logSubcallFailed, logSubcallSucceeded] at hlog

theorem Tried.succeeded {e : Entry} {gas g : U64} {r : Outcome PrecompileFailure Attempt}
    {d : List Step} {i : ℕ} (h : Tried cfg hd logCost e gas r d)
    (hmem : .logged g (logSubcallSucceeded hd.codeAddress i) ∈ d) :
    ∃ a, r = .ok a ∧ a.succeeded = true := by
  cases h with
  | handled h => exact ⟨_, rfl, succeeded_of_handled h hmem⟩
  | short _ => simp at hmem
  | fatal _ => simp at hmem
  | unlogged hd' =>
    have hlog : logSubcallSucceeded hd.codeAddress i ∈ (_ : List Step).filterMap Step.log? :=
      List.mem_filterMap.2 ⟨_, hmem, rfl⟩
    rw [hd'] at hlog
    simp at hlog

theorem Tried.eq_success {e : Entry} {gas : U64} {a : Attempt} {d : List Step}
    (h : Tried cfg hd logCost e gas (.ok a) d) (ha : a.succeeded = true) :
    ∃ output, Handled cfg hd logCost e (.called .succeed output) d := by
  rcases a with _ | _ | ⟨reason, output⟩
  · simp [Attempt.succeeded] at ha
  · simp [Attempt.succeeded] at ha
  cases reason with
  | succeed =>
    cases h with
    | handled h => exact ⟨output, h⟩
  | _ => simp [Attempt.succeeded] at ha

theorem upToFailure_common (cfg : Config) (hd : Handle H) (logCost : U64) :
    ∀ (es : List Entry) (h : H) (t : List Step),
    ∃ r h' c, upToFailure cfg hd.recorded logCost es (h, t) = (r, h', t ++ c) ∧
      Common cfg hd logCost (hd.remainingGas h') r es c
  | [], h, t => ⟨_, h, [], by rw [List.append_nil]; rfl, .nil⟩
  | e :: es, h, t => by
    obtain ⟨r, h₁, d, hrun, htried⟩ := attempt_tried cfg hd logCost e h t
    unfold upToFailure
    rcases r with a | f | m
    · rw [Call.bind_ok hrun]
      by_cases ha : a.succeeded = true
      · obtain ⟨output, hhandled⟩ := htried.eq_success ha
        obtain ⟨r, h', c, hrest, hcommon⟩ := upToFailure_common cfg hd logCost es h₁ (t ++ d)
        rw [List.append_assoc] at hrest
        exact ⟨r, h', d ++ c, by rw [if_pos ha, hrest], .success hhandled hcommon⟩
      · exact ⟨_, h₁, d, by rw [if_neg ha]; rfl, .failure htried (Bool.not_eq_true _ ▸ ha)⟩
    · exact ⟨_, h₁, d, Call.bind_err hrun, .broken htried⟩
    · cases htried

theorem settle_cases (mode : Mode) (a : Attempt) :
    (settle mode a : Call H PrecompileFailure Flow) = pure .next ∨
      (settle mode a : Call H PrecompileFailure Flow) = pure .stop ∨
      ∃ f, (settle mode a : Call H PrecompileFailure Flow) = Call.err f := by
  rcases a with _ | _ | ⟨reason, output⟩
  · cases mode with
    | batchAll => exact .inr (.inr ⟨_, rfl⟩)
    | _ => exact .inr (.inl rfl)
  · cases mode with
    | batchAll => exact .inr (.inr ⟨_, rfl⟩)
    | batchSome => exact .inl rfl
    | batchSomeUntilFailure => exact .inr (.inl rfl)
  · cases reason with
    | succeed => exact .inl (settle_of_succeeded rfl)
    | fatal f => cases mode <;> exact .inr (.inr ⟨_, rfl⟩)
    | _ =>
      cases mode with
      | batchAll => exact .inr (.inr ⟨_, rfl⟩)
      | batchSome => exact .inl rfl
      | batchSomeUntilFailure => exact .inr (.inl rfl)

variable (cfg hd logCost) in
/-- The steps of a run: those of the entries it processed, from the first one on, and where it fails
those of an entry without a log. -/
inductive Processed : Outcome PrecompileFailure Unit → List Entry → List Step → Prop
  | stop {r : Outcome PrecompileFailure Unit} {es : List Entry} : Processed r es []
  | broken {f : PrecompileFailure} {es : List Entry} {d : List Step} :
      d.filterMap Step.log? = [] → Processed (.err f) es d
  | next {e : Entry} {es : List Entry} {a : Attempt} {d t : List Step}
      {r : Outcome PrecompileFailure Unit} :
      Handled cfg hd logCost e a d → Processed r es t → Processed r (e :: es) (d ++ t)

theorem settle_processed {mode : Mode} {e : Entry} {es : List Entry} {a : Attempt} {d t : List Step}
    {h : H} (hd' : Handled cfg hd logCost e a d)
    (hloop : ∃ r h' c,
      batchLoop cfg hd.recorded mode logCost es (h, t ++ d) = (r, h', t ++ d ++ c) ∧
        Processed cfg hd logCost r es c) :
    ∃ r h' c, finish cfg hd.recorded mode logCost (some a, es) (h, t ++ d) = (r, h', t ++ c) ∧
      Processed cfg hd logCost r (e :: es) c := by
  have hone {r : Outcome PrecompileFailure Unit} : Processed cfg hd logCost r (e :: es) d := by
    have hnext : Processed cfg hd logCost r (e :: es) (d ++ []) := .next hd' .stop
    rwa [List.append_nil] at hnext
  rcases settle_cases (H := H × List Step) mode a with hs | hs | ⟨f, hs⟩
  · obtain ⟨r, h', c, hrun, hc⟩ := hloop
    rw [List.append_assoc] at hrun
    exact ⟨r, h', d ++ c, by rw [finish_next hs, hrun], .next hd' hc⟩
  · exact ⟨.ok (), h, d, by rw [finish_stop hs]; rfl, hone⟩
  · exact ⟨.err f, h, d, by rw [finish_err hs]; rfl, hone⟩

theorem batchLoop_processed (cfg : Config) (hd : Handle H) (logCost : U64) (mode : Mode) :
    ∀ (es : List Entry) (h : H) (t : List Step),
    ∃ r h' c, batchLoop cfg hd.recorded mode logCost es (h, t) = (r, h', t ++ c) ∧
      Processed cfg hd logCost r es c
  | [], h, t => ⟨_, h, [], by rw [List.append_nil]; rfl, .stop⟩
  | e :: es, h, t => by
    obtain ⟨r, h₁, d, hrun, htried⟩ := attempt_tried cfg hd logCost e h t
    rw [batchLoop_cons]
    cases htried with
    | handled hd' =>
      rw [Call.bind_ok hrun]
      exact settle_processed hd' (batchLoop_processed cfg hd logCost mode es h₁ (t ++ d))
    | short _ =>
      rw [Call.bind_ok hrun]
      cases mode <;> exact ⟨_, h₁, [], rfl, .stop⟩
    | fatal _ =>
      rw [Call.bind_ok hrun]
      cases mode <;> exact ⟨_, h₁, _, rfl, .broken rfl⟩
    | unlogged hd' => exact ⟨_, h₁, d, Call.bind_err hrun, .broken hd'⟩

theorem Processed.mem_loggedIndices {r : Outcome PrecompileFailure Unit} {es : List Entry}
    {t : List Step} (h : Processed cfg hd logCost r es t) {i : ℕ} (hi : i ∈ loggedIndices t) :
    i ∈ es.map Entry.index := by
  induction h with
  | stop => simp [loggedIndices] at hi
  | broken hd' => simp [loggedIndices, hd'] at hi
  | next hhandled _ ih =>
    rw [loggedIndices_append, hhandled.loggedIndices_eq, List.mem_append, List.mem_singleton] at hi
    rw [List.map_cons, List.mem_cons]
    exact hi.imp id ih

/-- A run that answers processed the first `n` entries, each with the one log that it calls for. -/
theorem Processed.exists_take {es : List Entry} {t : List Step}
    (h : Processed cfg hd logCost (.ok ()) es t) : ∃ n ≤ es.length, ∃ ts,
      List.Forall₂ (fun e d => ∃ a, Handled cfg hd logCost e a d) (es.take n) ts ∧
        t = ts.flatten ∧ loggedIndices t = (es.take n).map Entry.index := by
  generalize hr : (.ok () : Outcome PrecompileFailure Unit) = r at h
  induction h with
  | stop => exact ⟨0, Nat.zero_le _, [], by simp, rfl, by simp [loggedIndices]⟩
  | broken _ => cases hr
  | @next e es a d t r hhandled _ ih =>
    obtain ⟨n, hn, ts, hts, rfl, hlogs⟩ := ih hr
    refine ⟨n + 1, Nat.succ_le_succ hn, d :: ts, .cons ⟨a, hhandled⟩ hts, rfl, ?_⟩
    rw [loggedIndices_append, hhandled.loggedIndices_eq, hlogs]
    rfl

theorem Handled.logged_success {e : Entry} {output : List UInt8} {d : List Step}
    (h : Handled cfg hd logCost e (.called .succeed output) d) :
    ∃ g, .logged g (logSubcallSucceeded hd.codeAddress e.index) ∈ d := by
  cases h with
  | @called g g₁ g₂ gas reason output log hg hlog =>
    obtain rfl := Option.some.inj hlog
    exact ⟨g₂, by simp⟩

theorem Common.logged {gas : U64} {es rest : List Entry} {c : List Step}
    (h : Common cfg hd logCost gas (.ok (none, rest)) es c) {e : Entry} (he : e ∈ es) :
    ∃ g, .logged g (logSubcallSucceeded hd.codeAddress e.index) ∈ c := by
  generalize hr : (.ok (none, rest) : Outcome PrecompileFailure (Option Attempt × List Entry)) = r
    at h
  induction h with
  | nil => simp at he
  | success hhandled _ ih =>
    rcases List.mem_cons.1 he with rfl | he
    · obtain ⟨g, hg⟩ := hhandled.logged_success
      exact ⟨g, List.mem_append_left _ hg⟩
    · obtain ⟨g, hg⟩ := ih he hr
      exact ⟨g, List.mem_append_right _ hg⟩
  | failure _ _ => simp at hr
  | broken _ => simp at hr

/-- The first entry that does not succeed, and that it is not logged as one that did. -/
theorem Common.exists_failure {gas : U64} {es : List Entry} {c : List Step}
    {r : Outcome PrecompileFailure (Option Attempt × List Entry)}
    (h : Common cfg hd logCost gas r es c) (hr : ∀ rest, r ≠ .ok (none, rest)) :
    ∃ pre e rest, es = pre ++ e :: rest ∧ (∀ a rest', r = .ok (some a, rest') → rest' = rest) ∧
      ∀ g i, .logged g (logSubcallSucceeded hd.codeAddress i) ∈ c → i ∈ pre.map Entry.index := by
  induction h with
  | nil => exact absurd rfl (hr [])
  | @success e es output d t r hhandled _ ih =>
    obtain ⟨pre, e', rest, rfl, hrest, hlogged⟩ := ih hr
    refine ⟨e :: pre, e', rest, rfl, hrest, fun g i hmem => ?_⟩
    rw [List.map_cons, List.mem_cons]
    rcases List.mem_append.1 hmem with hmem | hmem
    · have hi := Batch.mem_loggedIndices hmem
      rw [hhandled.loggedIndices_eq] at hi
      exact .inl (List.mem_singleton.1 hi)
    · exact .inr (hlogged g i hmem)
  | @failure e es a d htried ha =>
    refine ⟨[], e, es, rfl, by simp, fun g i hmem => ?_⟩
    obtain ⟨b, hb, hsucc⟩ := htried.succeeded hmem
    obtain rfl := Outcome.ok.inj hb
    rw [ha] at hsucc
    exact absurd hsucc Bool.false_ne_true
  | @broken e es f d htried =>
    refine ⟨[], e, es, rfl, by simp, fun g i hmem => ?_⟩
    obtain ⟨b, hb, -⟩ := htried.succeeded hmem
    cases hb

theorem Common.failed {gas : U64} {a : Attempt} {es rest : List Entry} {c : List Step}
    (h : Common cfg hd logCost gas (.ok (some a, rest)) es c) : a.succeeded = false := by
  generalize hr : (.ok (some a, rest) : Outcome PrecompileFailure (Option Attempt × List Entry)) = r
    at h
  induction h with
  | nil => simp at hr
  | success _ _ ih => exact ih hr
  | failure _ ha =>
    simp only [Outcome.ok.injEq, Prod.mk.injEq, Option.some.injEq] at hr
    rw [hr.1, ha]
  | broken _ => simp at hr

/-- After the first failure only the entries after it are logged. -/
theorem finish_logged (cfg : Config) (hd : Handle H) (logCost : U64) (mode : Mode) (a : Attempt)
    (rest : List Entry) (h : H) (c : List Step) :
    ∃ r h' d, finish cfg hd.recorded mode logCost (some a, rest) (h, c) = (r, h', c ++ d) ∧
      ∀ i ∈ loggedIndices d, i ∈ rest.map Entry.index := by
  rcases settle_cases (H := H × List Step) mode a with hs | hs | ⟨f, hs⟩
  · obtain ⟨r, h', d, hrun, hd'⟩ := batchLoop_processed cfg hd logCost mode rest h c
    exact ⟨r, h', d, by rw [finish_next hs, hrun], fun i => hd'.mem_loggedIndices⟩
  · exact ⟨_, h, [], by rw [finish_stop hs, List.append_nil]; rfl, by simp [loggedIndices]⟩
  · exact ⟨_, h, [], by rw [finish_err hs, List.append_nil]; rfl, by simp [loggedIndices]⟩

end Runs

section Agreement

variable {H : Type} (cfg : Config) (hd : Handle H) (to_ : List H160) (value : List U256)
  (callData : List (List UInt8)) (gasLimit : List U64) {logCost : U64} (h : H)

/-- The batch from `h` on, with all it does. -/
def traced (mode : Mode) : Outcome PrecompileFailure Unit × H × List Step :=
  innerBatch cfg hd.recorded mode to_ value callData gasLimit (h, [])

variable {cfg hd to_ value callData gasLimit h}

theorem traced_eq (hcost : cfg.computeCost (logSubcallFailed hd.codeAddress 0) = some logCost)
    (mode : Mode) : traced cfg hd to_ value callData gasLimit h mode
      = batchLoop cfg hd.recorded mode logCost (entries 0 to_ value callData gasLimit) (h, []) := by
  have hok : (Call.okOr (cfg.computeCost (logSubcallFailed hd.recorded.codeAddress 0))
      (revert "Failed to compute log cost") : Call (H × List Step) PrecompileFailure U64) (h, [])
        = (.ok logCost, h, []) :=
    Call.okOr_eq_ok.2 ⟨hcost, rfl⟩
  exact Call.bind_ok hok

theorem traced_common (to_ : List H160) (value : List U256) (callData : List (List UInt8))
    (gasLimit : List U64) (h : H)
    (hcost : cfg.computeCost (logSubcallFailed hd.codeAddress 0) = some logCost) :
    ∃ r h' c,
      Common cfg hd logCost (hd.remainingGas h') r (entries 0 to_ value callData gasLimit) c ∧
      (∀ mode, traced cfg hd to_ value callData gasLimit h mode
        = (Call.lift r >>= finish cfg hd.recorded mode logCost) (h', c)) ∧
      ∀ mode, mode ≠ .batchSome →
        (traced cfg hd to_ value callData gasLimit h mode).2 = (h', c) := by
  obtain ⟨r, h', c, hrun, hcommon⟩ := upToFailure_common cfg hd logCost
    (entries 0 to_ value callData gasLimit) h []
  rw [List.nil_append] at hrun
  have htraced (mode : Mode) : traced cfg hd to_ value callData gasLimit h mode
      = (Call.lift r >>= finish cfg hd.recorded mode logCost) (h', c) := by
    rw [traced_eq hcost, batchLoop_eq, Call.bind_eq_lift hrun]
  refine ⟨r, h', c, hcommon, htraced, fun mode hmode => ?_⟩
  rw [htraced mode]
  rcases r with x | f | m
  · exact snd_finish hrun hmode
  · rfl
  · rfl

theorem traced_processed (to_ : List H160) (value : List U256) (callData : List (List UInt8))
    (gasLimit : List U64) (h : H)
    (hcost : cfg.computeCost (logSubcallFailed hd.codeAddress 0) = some logCost) (mode : Mode) :
    Processed cfg hd logCost (traced cfg hd to_ value callData gasLimit h mode).1
      (entries 0 to_ value callData gasLimit)
      (traced cfg hd to_ value callData gasLimit h mode).2.2 := by
  obtain ⟨r, h', c, hrun, hprocessed⟩ := batchLoop_processed cfg hd logCost mode
    (entries 0 to_ value callData gasLimit) h []
  rw [List.nil_append] at hrun
  rw [traced_eq hcost, hrun]
  exact hprocessed

theorem batchAll_eq_ok {gas : U64} {es : List Entry} {c : List Step}
    {r : Outcome PrecompileFailure (Option Attempt × List Entry)}
    (hcommon : Common cfg hd logCost gas r es c) (h' : H) :
    ((Call.lift r >>= finish cfg hd.recorded .batchAll logCost) (h', c)).1 = .ok () ↔
      ∃ rest, r = .ok (none, rest) := by
  rcases r with ⟨_ | a, rest⟩ | f | m
  · exact iff_of_true rfl ⟨rest, rfl⟩
  · obtain ⟨f, hf⟩ := settle_batchAll (H := H × List Step) hcommon.failed
    have herr : ((Call.lift (.ok (some a, rest)) >>= finish cfg hd.recorded .batchAll logCost)
        (h', c)).1 = .err f := by
      show (finish cfg hd.recorded .batchAll logCost (some a, rest) (h', c)).1 = _
      rw [finish_err hf]
      rfl
    simp [herr]
  · exact iff_of_false (by simp [Call.bind_err (show Call.lift (.err f) (h', c) = _ from rfl)])
      (by simp)
  · exact iff_of_false (by simp [Call.bind_panic (show Call.lift (.panic m) (h', c) = _ from rfl)])
      (by simp)

/-- After the common part `batchSome` logs only entries after the first failure. -/
theorem batchSome_logged {gas : U64} {es : List Entry} {c : List Step}
    {r : Outcome PrecompileFailure (Option Attempt × List Entry)}
    (hcommon : Common cfg hd logCost gas r es c) (h' : H) :
    ∃ d, ((Call.lift r >>= finish cfg hd.recorded .batchSome logCost) (h', c)).2.2 = c ++ d ∧
      ∀ i ∈ loggedIndices d, ∃ a rest, r = .ok (some a, rest) ∧ i ∈ rest.map Entry.index := by
  rcases r with ⟨_ | a, rest⟩ | f | m
  · exact ⟨[], (List.append_nil c).symm, by simp [loggedIndices]⟩
  · obtain ⟨r, h₁, d, hrun, hlogged⟩ := finish_logged cfg hd logCost .batchSome a rest h' c
    refine ⟨d, ?_, fun i hi => ⟨a, rest, rfl, hlogged i hi⟩⟩
    show (finish cfg hd.recorded .batchSome logCost (some a, rest) (h', c)).2.2 = _
    rw [hrun]
  · exact ⟨[], (List.append_nil c).symm, by simp [loggedIndices]⟩
  · exact ⟨[], (List.append_nil c).symm, by simp [loggedIndices]⟩

/-- No entry fails exactly where `batchSome` logs each as one that succeeded. -/
theorem all_logged_iff {gas : U64} {c d : List Step}
    {r : Outcome PrecompileFailure (Option Attempt × List Entry)}
    (hcommon : Common cfg hd logCost gas r (entries 0 to_ value callData gasLimit) c)
    (hd' : ∀ i ∈ loggedIndices d, ∃ a rest, r = .ok (some a, rest) ∧ i ∈ rest.map Entry.index) :
    (∃ rest, r = .ok (none, rest)) ↔ ∀ i < to_.length,
      ∃ g, .logged g (logSubcallSucceeded hd.codeAddress i) ∈ c ++ d := by
  have hindex := map_index_entries to_ 0 value callData gasLimit
  rw [← List.range_eq_range'] at hindex
  constructor
  · rintro ⟨rest, rfl⟩ i hi
    have hmem : i ∈ (entries 0 to_ value callData gasLimit).map Entry.index := by
      rw [hindex]
      exact List.mem_range.2 hi
    obtain ⟨e, he, rfl⟩ := List.mem_map.1 hmem
    obtain ⟨g, hg⟩ := hcommon.logged he
    exact ⟨g, List.mem_append_left d hg⟩
  · intro hall
    by_contra hr
    obtain ⟨pre, e, rest, hes, hrest, hlogged⟩ :=
      hcommon.exists_failure fun rest h => hr ⟨rest, h⟩
    -- the first entry that fails is logged neither before nor after it
    have hnodup : ((pre ++ e :: rest).map Entry.index).Nodup := by
      rw [← hes, hindex]
      exact List.nodup_range
    have hlt : e.index < to_.length := by
      rw [← List.mem_range, ← hindex, hes]
      simp
    rw [List.map_append, List.map_cons, List.nodup_append, List.nodup_cons] at hnodup
    obtain ⟨-, ⟨hafter, -⟩, hbefore⟩ := hnodup
    obtain ⟨g, hg⟩ := hall e.index hlt
    rcases List.mem_append.1 hg with hg | hg
    · exact hbefore _ (hlogged g _ hg) _ List.mem_cons_self rfl
    · obtain ⟨a, rest', hr', hmem⟩ := hd' _ (mem_loggedIndices hg)
      rw [hrest a rest' hr'] at hmem
      exact hafter hmem

/-- The modes of a batch do the same up to and including the first entry that does not succeed,
where all but `batchSome` end. `batchAll` answers exactly where `batchSome` logs success for every
entry, and then all modes are the same. A batch that answers processed the first `n` entries, in
order, with one log for each. -/
theorem modes_agree (cfg : Config) (hd : Handle H) (to_ : List H160) (value : List U256)
    (callData : List (List UInt8)) (gasLimit : List U64) (h : H)
    (hcost : cfg.computeCost (logSubcallFailed hd.codeAddress 0) = some logCost) :
    (∀ mode, innerBatch cfg hd mode to_ value callData gasLimit h
      = ((traced cfg hd to_ value callData gasLimit h mode).1,
        (traced cfg hd to_ value callData gasLimit h mode).2.1)) ∧
    (∀ i, (entries 0 to_ value callData gasLimit)[i]? = to_[i]?.map fun address =>
      Entry.mk i address (value[i]?.getD 0) (callData[i]?.getD []) (gasLimit[i]?.bind limit)) ∧
    (∃ r h' c,
      Common cfg hd logCost (hd.remainingGas h') r (entries 0 to_ value callData gasLimit) c ∧
      (∀ mode, traced cfg hd to_ value callData gasLimit h mode
        = (Call.lift r >>= finish cfg hd.recorded mode logCost) (h', c)) ∧
      (∀ mode, mode ≠ .batchSome →
        (traced cfg hd to_ value callData gasLimit h mode).2 = (h', c)) ∧
      c <+: (traced cfg hd to_ value callData gasLimit h .batchSome).2.2) ∧
    ((traced cfg hd to_ value callData gasLimit h .batchAll).1 = .ok () ↔ ∀ i < to_.length,
      ∃ g, .logged g (logSubcallSucceeded hd.codeAddress i)
        ∈ (traced cfg hd to_ value callData gasLimit h .batchSome).2.2) ∧
    ((traced cfg hd to_ value callData gasLimit h .batchAll).1 = .ok () → ∀ mode,
      traced cfg hd to_ value callData gasLimit h mode
        = traced cfg hd to_ value callData gasLimit h .batchAll) ∧
    ∀ mode, (traced cfg hd to_ value callData gasLimit h mode).1 = .ok () →
      ∃ n ≤ to_.length, ∃ ts,
        List.Forall₂ (fun e d => ∃ a, Handled cfg hd logCost e a d)
          ((entries 0 to_ value callData gasLimit).take n) ts ∧
        (traced cfg hd to_ value callData gasLimit h mode).2.2 = ts.flatten ∧
        loggedIndices (traced cfg hd to_ value callData gasLimit h mode).2.2 = List.range n := by
  have hindex := map_index_entries to_ 0 value callData gasLimit
  rw [← List.range_eq_range'] at hindex
  obtain ⟨r, h', c, hcommon, htraced, hends⟩ := traced_common to_ value callData gasLimit h hcost
  obtain ⟨d, hsome, hd'⟩ := batchSome_logged hcommon h'
  rw [← htraced] at hsome
  have hall := batchAll_eq_ok hcommon h'
  rw [← htraced] at hall
  refine ⟨fun mode => innerBatch_projects to_ value callData gasLimit (h, []), fun i => ?_,
    ⟨r, h', c, hcommon, htraced, hends, hsome ▸ List.prefix_append c d⟩, ?_, fun hok mode => ?_,
    fun mode hok => ?_⟩
  · rw [entries_getElem?, Nat.zero_add]
  · rw [hall, hsome]
    exact all_logged_iff hcommon hd'
  · obtain ⟨rest, rfl⟩ := hall.1 hok
    rw [htraced mode, htraced .batchAll]
    rfl
  · have hprocessed := traced_processed to_ value callData gasLimit h hcost mode
    rw [hok] at hprocessed
    obtain ⟨n, hn, ts, hts, hflat, hlogs⟩ := hprocessed.exists_take
    rw [← List.length_map Entry.index, hindex, List.length_range] at hn
    refine ⟨n, hn, ts, hts, hflat, ?_⟩
    rw [hlogs, List.map_take, hindex, List.take_range, Nat.min_eq_left hn]

end Agreement

section Incomplete

/-- A log with one topic and an index. -/
def testLogCost : U64 := .lit 1006

/-- The calls to accounts that may be new. -/
def testConfig : Config where
  computeCost _ := some testLogCost
  callCost value := if value.val = 0 then .lit 2600 else .lit 36600

/-- The test of the batch with a subcall that reverts, the one to `charlie`. -/
def testHandle : Handle U64 where
  caller := Mock.alith
  codeAddress := Mock.precompile
  remainingGas g := g
  recordLogCosts _ g := (g.checkedSub testLogCost).elim (.error .outOfGas) .ok
  log _ g := .ok g
  call sub g :=
    let g' := g.saturatingSub (testConfig.callCost sub.context.apparentValue)
    if sub.codeAddress = Mock.charlie then ((.revert, [1, 2]), g'.saturatingSub (.lit 17))
    else ((.succeed, []), g'.saturatingSub (.lit 13))

def testTo : List H160 := [Mock.bob, Mock.charlie, Mock.alith]

def testValue : List U256 := [.lit 1, .lit 2, .lit 3]

/-- The data of the first entry alone. -/
def testCallData : List (List UInt8) := [[111, 110, 101]]

def testGas : U64 := .lit 300000

theorem modes_agree_incomplete :
    (traced testConfig testHandle testTo testValue testCallData [] testGas .batchAll).1
        ≠ .ok () ∧
      (traced testConfig testHandle testTo testValue testCallData [] testGas .batchSome).1
        = .ok () ∧
      ∃ n ≤ testTo.length, ∃ ts,
        List.Forall₂ (fun e d => ∃ a, Handled testConfig testHandle testLogCost e a d)
          ((entries 0 testTo testValue testCallData []).take n) ts ∧
        (traced testConfig testHandle testTo testValue testCallData [] testGas .batchSome).2.2
          = ts.flatten ∧
        loggedIndices
            (traced testConfig testHandle testTo testValue testCallData [] testGas .batchSome).2.2
          = List.range n := by
  obtain ⟨-, -, -, -, -, hprocessed⟩ :=
    modes_agree testConfig testHandle testTo testValue testCallData [] testGas rfl
  have hsome : (traced testConfig testHandle testTo testValue testCallData [] testGas .batchSome).1
      = .ok () := by decide +kernel
  exact ⟨by decide +kernel, hsome, hprocessed .batchSome hsome⟩

end Incomplete

end Batch

end Moonkit
