import Moonkit.Base.Machine

/-!
# Queues between the parts of a machine

Where every operation takes from the front of a queue and adds at its back, what was added along a
run is what was taken, in the same order, and then what still waits. And where each operation of a
kind lowers a measure or finishes, enough of them finish.
-/

namespace Machine

variable {σ ω ρ α : Type} {M : Machine σ ω ρ}

/-- What was added along a run was taken in order, or waits. -/
theorem Run.fifo {queue : σ → List α} {added taken : Event σ ω ρ → List α}
    {allow : List (Event σ ω ρ) → σ → ω → Prop} {h : List (Event σ ω ρ)} {s : σ}
    (hg : ∀ s, M.genesis s → queue s = [])
    (hs : ∀ s op, queue s ++ added (M.event s op) = taken (M.event s op) ++ queue (M.exec s op).2)
    (hr : Run M allow h s) : h.reverse.flatMap added = h.reverse.flatMap taken ++ queue s := by
  induction hr with
  | start h0 => simp [hg _ h0]
  | @step h s op _ _ ih =>
    rw [List.reverse_cons, List.flatMap_append, List.flatMap_append, List.flatMap_singleton,
      List.flatMap_singleton, ih, List.append_assoc, List.append_assoc, hs]

/-- Enough operations of the kind finish, from every state with `I`. -/
theorem replay_finishes (I finished : σ → Prop) (measure : σ → ℕ) (kind : ω → Bool)
    (hI : ∀ s op, I s → I (M.exec s op).2)
    (hfinished : ∀ s op, I s → finished s → finished (M.exec s op).2)
    (hmeasure : ∀ s op, I s → finished (M.exec s op).2 ∨ measure (M.exec s op).2 ≤ measure s)
    (hkind : ∀ s op, I s → kind op = true →
      finished (M.exec s op).2 ∨ measure (M.exec s op).2 < measure s) :
    ∀ (ops : List ω) (h : List (Event σ ω ρ)) {s : σ}, I s →
      (finished s ∨ measure s < ops.countP kind) → finished (M.replay h s ops).2
  | [], _, s, _, hs => by
    rcases hs with hs | hs
    · exact hs
    · exact absurd hs (Nat.not_lt_zero _)
  | op :: ops, h, s, hi, hs => by
    refine replay_finishes I finished measure kind hI hfinished hmeasure hkind ops _ (hI s op hi) ?_
    rcases hs with hs | hs
    · exact .inl (hfinished s op hi hs)
    · by_cases hop : kind op = true
      · rw [List.countP_cons_of_pos hop] at hs
        exact (hkind s op hi hop).imp_right fun hlt => by omega
      · rw [List.countP_cons_of_neg hop] at hs
        exact (hmeasure s op hi).imp_right fun hle => Nat.lt_of_le_of_lt hle hs

end Machine
