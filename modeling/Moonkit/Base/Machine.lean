import Mathlib.Data.List.Basic

/-!
# Machines and their runs

A machine answers each operation and moves to a next state. `Machine.Run` is its runs from a
genesis state under a discipline: `allow h s op` says which operations may follow the history `h`
in the state `s`. A run carries its history, newest event first, with the states around each
operation, so what happened along a run is a function of the history.
-/

/-- A machine on states `σ` with operations `ω` and answers `ρ`. -/
structure Machine (σ ω ρ : Type) where
  genesis : σ → Prop
  exec : σ → ω → ρ × σ

namespace Machine

variable {σ ω ρ : Type}

/-- One operation of a run, with its answer and the states around it. -/
structure Event (σ ω ρ : Type) where
  before : σ
  op : ω
  answer : ρ
  after : σ

def event (M : Machine σ ω ρ) (s : σ) (op : ω) : Event σ ω ρ :=
  ⟨s, op, (M.exec s op).1, (M.exec s op).2⟩

/-- The runs of `M` whose operations are all allowed: their history and the state they reach. -/
inductive Run (M : Machine σ ω ρ) (allow : List (Event σ ω ρ) → σ → ω → Prop) :
    List (Event σ ω ρ) → σ → Prop
  | start {s : σ} : M.genesis s → Run M allow [] s
  | step {h : List (Event σ ω ρ)} {s : σ} {op : ω} : Run M allow h s → allow h s op →
      Run M allow (M.event s op :: h) (M.exec s op).2

variable {M : Machine σ ω ρ} {allow allow' : List (Event σ ω ρ) → σ → ω → Prop}
  {h : List (Event σ ω ρ)} {s : σ}

/-- The state a history began in, where it ended in `s`. -/
def origin : List (Event σ ω ρ) → σ → σ
  | [], s => s
  | e :: h, _ => origin h e.before

namespace Run

theorem genesis_origin (hr : Run M allow h s) : M.genesis (origin h s) := by
  induction hr with
  | start h0 => exact h0
  | step _ _ ih => exact ih

/-- What holds at genesis and is kept by every allowed operation holds along every run. -/
theorem invariant (I : List (Event σ ω ρ) → σ → Prop) (hg : ∀ s, M.genesis s → I [] s)
    (hs : ∀ h s op, Run M allow h s → I h s → allow h s op →
      I (M.event s op :: h) (M.exec s op).2)
    (hr : Run M allow h s) : I h s := by
  induction hr with
  | start h0 => exact hg _ h0
  | step hr ha ih => exact hs _ _ _ hr ih ha

/-- A list that each operation may add one thing to holds these things, in the order of the run. -/
theorem written_eq {τ : Type*} (f : σ → List τ) (written : Event σ ω ρ → Option τ)
    (hw : ∀ s op, f (M.exec s op).2 = f s ++ (written (M.event s op)).toList)
    (hr : Run M allow h s) : f s = f (origin h s) ++ h.reverse.filterMap written := by
  induction hr with
  | start _ => exact (List.append_nil _).symm
  | @step h s op hr _ ih =>
    rw [hw, ih, List.append_assoc, List.reverse_cons, List.filterMap_append]
    congr 2

/-- The events of a run are executions of allowed operations in states the run reached. -/
theorem mem_event (hr : Run M allow h s) {e : Event σ ω ρ} (he : e ∈ h) :
    ∃ h', Run M allow h' e.before ∧ allow h' e.before e.op ∧ e = M.event e.before e.op := by
  induction hr with
  | start _ => simp at he
  | step hr ha ih =>
    rcases List.mem_cons.1 he with rfl | he
    · exact ⟨_, hr, ha, rfl⟩
    · exact ih he

/-- Where `bad` operations break `P`, all others keep it and it holds at genesis exactly if `good`
does, the runs that keep `P` in all their states are those without a bad operation from a good
genesis. -/
theorem forall_iff_of_genesis {P : σ → Prop} {good : Prop} {bad : σ → ω → Prop}
    (hg : ∀ s, M.genesis s → (P s ↔ good))
    (hkeep : ∀ s op, P s → ¬ bad s op → P (M.exec s op).2)
    (hbreak : ∀ s op, P s → bad s op → ¬ P (M.exec s op).2) (hr : Run M allow h s) :
    (∀ t ∈ s :: h.map Event.before, P t) ↔ good ∧ ∀ e ∈ h, ¬ bad e.before e.op := by
  induction hr with
  | start h0 => simpa using hg _ h0
  | @step h s op hr ha ih =>
    simp only [List.map_cons, List.forall_mem_cons] at ih ⊢
    constructor
    · rintro ⟨hafter, hbefore, hrest⟩
      obtain ⟨hgood, hnots⟩ := ih.1 ⟨hbefore, hrest⟩
      exact ⟨hgood, fun hbad => hbreak s op hbefore hbad hafter, hnots⟩
    · rintro ⟨hgood, hnot, hnots⟩
      obtain ⟨hbefore, hrest⟩ := ih.2 ⟨hgood, hnots⟩
      exact ⟨hkeep s op hbefore hnot, hbefore, hrest⟩

/-- Where `bad` operations break `P` and all others keep it, the runs that keep `P` in all their
states are those without a bad operation. -/
theorem forall_iff {P : σ → Prop} {bad : σ → ω → Prop} (hg : ∀ s, M.genesis s → P s)
    (hkeep : ∀ s op, P s → ¬ bad s op → P (M.exec s op).2)
    (hbreak : ∀ s op, bad s op → ¬ P (M.exec s op).2) (hr : Run M allow h s) :
    (∀ t ∈ s :: h.map Event.before, P t) ↔ ∀ e ∈ h, ¬ bad e.before e.op := by
  have hiff := hr.forall_iff_of_genesis (fun s h0 => iff_true_intro (hg s h0)) hkeep
    fun s op _ => hbreak s op
  rwa [true_and] at hiff

/-- What is left of a run when its newest events are dropped is a run. -/
theorem suffix (hr : Run M allow h s) {h' : List (Event σ ω ρ)} (hs : h' <:+ h) :
    ∃ s', Run M allow h' s' := by
  induction hr with
  | start h0 =>
    obtain rfl := List.suffix_nil.1 hs
    exact ⟨_, .start h0⟩
  | step hr ha ih =>
    rcases List.suffix_cons_iff.1 hs with rfl | hs
    · exact ⟨_, .step hr ha⟩
    · exact ih hs

end Run

/-- The history and the state of executing `ops`, oldest first, after the history `h` in `s`. -/
def replay (M : Machine σ ω ρ) : List (Event σ ω ρ) → σ → List ω → List (Event σ ω ρ) × σ
  | h, s, [] => (h, s)
  | h, s, op :: ops => replay M (M.event s op :: h) (M.exec s op).2 ops

/-- Every operation of `ops`, oldest first, is allowed when its turn comes. -/
def AllowsAll (M : Machine σ ω ρ) (allow : List (Event σ ω ρ) → σ → ω → Prop) :
    List (Event σ ω ρ) → σ → List ω → Prop
  | _, _, [] => True
  | h, s, op :: ops => allow h s op ∧ AllowsAll M allow (M.event s op :: h) (M.exec s op).2 ops

instance decidableAllowsAll (M : Machine σ ω ρ) (allow : List (Event σ ω ρ) → σ → ω → Prop)
    [∀ h s op, Decidable (allow h s op)] :
    ∀ (h : List (Event σ ω ρ)) (s : σ) (ops : List ω), Decidable (AllowsAll M allow h s ops)
  | _, _, [] => inferInstanceAs (Decidable True)
  | h, s, op :: ops =>
    haveI := decidableAllowsAll M allow (M.event s op :: h) (M.exec s op).2 ops
    inferInstanceAs (Decidable (_ ∧ _))

theorem run_replay : ∀ (ops : List ω) {h : List (Event σ ω ρ)} {s : σ}, Run M allow h s →
    AllowsAll M allow h s ops → Run M allow (M.replay h s ops).1 (M.replay h s ops).2
  | [], _, _, hr, _ => hr
  | _ :: ops, _, _, hr, ⟨ha, hall⟩ => run_replay ops (.step hr ha) hall

theorem run_replay_all : ∀ (ops : List ω) {h : List (Event σ ω ρ)} {s : σ},
    Run M (fun _ _ _ => True) h s →
      Run M (fun _ _ _ => True) (M.replay h s ops).1 (M.replay h s ops).2
  | [], _, _, hr => hr
  | _ :: ops, _, _, hr => run_replay_all ops (.step hr trivial)

end Machine
