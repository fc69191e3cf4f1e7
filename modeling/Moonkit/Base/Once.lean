import Mathlib.Data.List.Nodup
import Mathlib.Data.List.Perm.Subperm

/-!
# Jobs that run once

Named jobs are worked through in passes, each with a list of its own. A pass runs the jobs of its
list whose names are not done, and then all names of the list are done. Along any number of passes
a job runs in the first pass that lists it and in no other, and a job that was done at the start
never runs.
-/

namespace Once

variable {N : Type*} {done done₁ done' : N → Prop} {listed listed₁ ran ran₁ : List N} {n : N}

/-- A pass over `listed`, from the names `done` before it to the names `done'` after it, that ran
the jobs of `ran`. -/
structure Pass (listed : List N) (done done' : N → Prop) (ran : List N) : Prop where
  order : ran.Sublist listed
  once : ran.Nodup
  mem : ∀ n, n ∈ ran ↔ n ∈ listed ∧ ¬ done n
  done : ∀ n, done' n ↔ done n ∨ n ∈ listed

namespace Pass

theorem nil : Pass [] done done [] where
  order := .slnil
  once := .nil
  mem := by simp
  done := by simp

theorem skip (h : done n) : Pass [n] done done [] where
  order := List.nil_sublist _
  once := .nil
  mem := by simp [h]
  done := by simp [h]

theorem run (h : ¬ done n) (hdone : ∀ m, done' m ↔ done m ∨ m = n) : Pass [n] done done' [n] where
  order := .refl _
  once := List.nodup_singleton n
  mem m := by
    rw [List.mem_singleton]
    refine ⟨fun hm => ⟨hm, hm ▸ h⟩, And.left⟩
  done m := by rw [hdone m, List.mem_singleton]

theorem append (h₁ : Pass listed₁ done done₁ ran₁) (h : Pass listed done₁ done' ran) :
    Pass (listed₁ ++ listed) done done' (ran₁ ++ ran) where
  order := h₁.order.append h.order
  once := by
    refine List.nodup_append.2 ⟨h₁.once, h.once, ?_⟩
    rintro n hn _ hn' rfl
    exact ((h.mem n).1 hn').2 ((h₁.done n).2 (.inr ((h₁.mem n).1 hn).1))
  mem n := by
    rw [List.mem_append, List.mem_append, h₁.mem n, h.mem n, h₁.done n]
    tauto
  done n := by
    rw [h.done n, h₁.done n, List.mem_append, or_assoc]

/-- Of a list without duplicates, a pass runs what is not done. -/
theorem eq_filter [DecidablePred done] (h : Pass listed done done' ran) (hnodup : listed.Nodup) :
    ran = listed.filter fun n => ¬ done n := by
  have hself : ran.filter (fun n => ¬ done n) = ran :=
    List.filter_eq_self.2 fun n hn => decide_eq_true ((h.mem n).1 hn).2
  have hsub := h.order.filter fun n => ¬ done n
  rw [hself] at hsub
  refine hsub.eq_of_length_le (List.subperm_of_subset (hnodup.filter _) fun n hn => ?_).length_le
  obtain ⟨hmem, hdone⟩ := List.mem_filter.1 hn
  exact (h.mem n).2 ⟨hmem, of_decide_eq_true hdone⟩

end Pass

/-- The name is in one of the lists. -/
def Listed (passes : List (List N)) (n : N) : Prop := ∃ listed ∈ passes, n ∈ listed

theorem listed_cons {passes : List (List N)} :
    Listed (listed :: passes) n ↔ n ∈ listed ∨ Listed passes n := by
  simp [Listed]

/-- Where passes over these lists, newest first, lead to: the names `done`, and the jobs of `log`
that ran, oldest first. -/
structure History (start : N → Prop) (passes : List (List N)) (done : N → Prop) (log : List N) :
    Prop where
  done : ∀ n, done n ↔ start n ∨ Listed passes n
  mem : ∀ n, n ∈ log ↔ ¬ start n ∧ Listed passes n
  once : log.Nodup

namespace History

variable {start : N → Prop} {passes : List (List N)} {log : List N}

theorem nil (hstart : ∀ n, done n ↔ start n) : History start [] done [] where
  done := by simp [Listed, hstart]
  mem := by simp [Listed]
  once := .nil

/-- The next pass runs what neither the start nor an earlier pass lists. -/
theorem mem_ran (h : History start passes done log) (hp : Pass listed done done' ran) (n : N) :
    n ∈ ran ↔ n ∈ listed ∧ ¬ start n ∧ ¬ Listed passes n := by
  rw [hp.mem n, h.done n, not_or]

theorem pass (h : History start passes done log) (hp : Pass listed done done' ran) :
    History start (listed :: passes) done' (log ++ ran) where
  done n := by
    rw [hp.done n, h.done n, listed_cons]
    tauto
  mem n := by
    rw [List.mem_append, h.mem n, h.mem_ran hp n, listed_cons]
    tauto
  once := by
    refine List.nodup_append.2 ⟨h.once, hp.once, ?_⟩
    rintro n hn _ hn' rfl
    exact ((h.mem_ran hp n).1 hn').2.2 ((h.mem n).1 hn).2

end History

end Once
