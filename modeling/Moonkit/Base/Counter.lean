import Mathlib.Data.List.Nodup
import Mathlib.Data.List.Range
import Mathlib.Logic.Function.Basic
import Moonkit.Base.Machine

/-!
# Numbers given out by counters

Each key has a counter that gives out its value and goes up by one. What was given out is
`Consecutive` with the counters where every key got the numbers below its counter, in order. Then no
number was given out twice, and neither was anything that names its key and its number
(`Consecutive.nodup_map`).
-/

namespace Counter

variable {K : Type} [DecidableEq K]

/-- The numbers given out to a key, oldest first. -/
def numbers (l : List (K × ℕ)) (k : K) : List ℕ := (l.filter fun p => p.1 = k).map Prod.snd

def Consecutive (l : List (K × ℕ)) (next : K → ℕ) : Prop :=
  ∀ k, numbers l k = List.range (next k)

theorem numbers_append (l l' : List (K × ℕ)) (k : K) :
    numbers (l ++ l') k = numbers l k ++ numbers l' k := by
  simp [numbers]

theorem numbers_cons_self (k : K) (n : ℕ) (l : List (K × ℕ)) :
    numbers ((k, n) :: l) k = n :: numbers l k := by
  simp [numbers]

theorem numbers_cons_of_ne {j k : K} (h : j ≠ k) (n : ℕ) (l : List (K × ℕ)) :
    numbers ((j, n) :: l) k = numbers l k := by
  simp [numbers, h]

theorem mem_numbers {l : List (K × ℕ)} {k : K} {n : ℕ} : n ∈ numbers l k ↔ (k, n) ∈ l := by
  simp [numbers]

/-- Where no key got a number twice, nothing was given out twice. -/
theorem nodup_of_numbers : ∀ {l : List (K × ℕ)}, (∀ k, (numbers l k).Nodup) → l.Nodup
  | [], _ => List.nodup_nil
  | (j, n) :: l, h => by
    have hj := h j
    rw [numbers_cons_self, List.nodup_cons, mem_numbers] at hj
    refine List.nodup_cons.2 ⟨hj.1, nodup_of_numbers fun k => ?_⟩
    by_cases hk : j = k
    · rw [← hk]
      exact hj.2
    · simpa [numbers_cons_of_ne hk] using h k

namespace Consecutive

variable {l : List (K × ℕ)} {next : K → ℕ}

theorem nil : Consecutive ([] : List (K × ℕ)) fun _ => 0 := fun _ => rfl

/-- Giving out the value of a counter and putting it up by one. -/
theorem append (h : Consecutive l next) (k : K) :
    Consecutive (l ++ [(k, next k)]) (Function.update next k (next k + 1)) := by
  intro j
  rw [numbers_append, h j]
  by_cases hj : k = j
  · subst hj
    rw [numbers_cons_self, Function.update_self, List.range_succ]
    rfl
  · rw [numbers_cons_of_ne hj, Function.update_of_ne (Ne.symm hj)]
    exact List.append_nil _

theorem nodup (h : Consecutive l next) : l.Nodup := by
  refine nodup_of_numbers fun k => ?_
  rw [h k]
  exact List.nodup_range

theorem nodup_map {α β : Type} {L : List α} {number : α → K × ℕ} {name : α → β}
    (h : Consecutive (L.map number) next) (hname : ∀ a b, name a = name b → number a = number b) :
    (L.map name).Nodup := by
  refine List.Nodup.map_on (fun a ha b hb hab => ?_) (List.Nodup.of_map _ h.nodup)
  exact List.inj_on_of_nodup_map h.nodup ha hb (hname a b hab)

end Consecutive

section Runs

open Machine

variable {σ ω ρ : Type}

/-- The event gives out the value of a counter and puts it up, or leaves the counters alone. -/
def Counts (given : Event σ ω ρ → Option (K × ℕ)) (next : σ → K → ℕ) (e : Event σ ω ρ) : Prop :=
  (given e = none ∧ next e.after = next e.before) ∨
    ∃ k, given e = some (k, next e.before k) ∧
      next e.after = Function.update (next e.before) k (next e.before k + 1)

/-- A run whose events all count has given out consecutive numbers. -/
theorem consecutive_of_run {M : Machine σ ω ρ} {allow : List (Event σ ω ρ) → σ → ω → Prop}
    {given : Event σ ω ρ → Option (K × ℕ)} {next : σ → K → ℕ}
    (hg : ∀ s, M.genesis s → next s = fun _ => 0)
    (hs : ∀ h s op, M.Run allow h s → allow h s op → Counts given next (M.event s op))
    {h : List (Event σ ω ρ)} {s : σ} (hr : M.Run allow h s) :
    Consecutive (h.reverse.filterMap given) (next s) := by
  induction hr with
  | start h0 =>
    rw [hg _ h0]
    exact Consecutive.nil
  | @step h s op hr ha ih =>
    rw [List.reverse_cons, List.filterMap_append]
    rcases hs h s op hr ha with ⟨hnone, hnext⟩ | ⟨k, hsome, hnext⟩
    · rw [show next (M.exec s op).2 = next s from hnext]
      simpa [hnone] using ih
    · rw [show next (M.exec s op).2 = _ from hnext, List.filterMap_cons_some hsome]
      exact ih.append k

end Runs

end Counter
