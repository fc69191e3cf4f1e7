import Mathlib.Data.List.Basic
import Mathlib.Data.List.Perm.Basic
import Mathlib.Data.Nat.Notation
import Mathlib.Tactic.SplitIfs

/-!
# Grants and their uses

A log in which owners make grants and take them back, and grants are used. `held` is what an owner
has granted and not taken back; `Kept` says that a store of grants agrees with the log, and that
every use in the log was of a grant held then.
-/

namespace Grants

variable {O G U : Type*}

inductive Entry (O G U : Type*) where
  | granted (owner : O) (grant : G)
  | revoked (owner : O) (grant : G)
  | cleared (owner : O)
  | used (owner : O) (grant : G) (what : U)

variable [DecidableEq O] [DecidableEq G]

/-- The grants of `owner` after an entry. -/
def Entry.after (owner : O) (grants : List G) : Entry O G U → List G
  | granted o g => if o = owner then g :: grants else grants
  | revoked o g => if o = owner then grants.erase g else grants
  | cleared o => if o = owner then [] else grants
  | used _ _ _ => grants

def held (log : List (Entry O G U)) (owner : O) : List G := log.foldl (Entry.after owner) []

@[simp] theorem held_append (log : List (Entry O G U)) (e : Entry O G U) (owner : O) :
    held (log ++ [e]) owner = e.after owner (held log owner) := by
  simp [held]

/-- Every use was of a grant its owner held then, and such that `P`. -/
def Authorized (P : O → G → U → Prop) (log : List (Entry O G U)) : Prop :=
  ∀ before o g u after, log = before ++ .used o g u :: after → g ∈ held before o ∧ P o g u

variable {P : O → G → U → Prop} {log : List (Entry O G U)}

theorem authorized_nil : Authorized P ([] : List (Entry O G U)) := by
  intro before o g u after h
  simp at h

theorem Authorized.append (h : Authorized P log) {e : Entry O G U}
    (he : ∀ o g u, e = .used o g u → g ∈ held log o ∧ P o g u) : Authorized P (log ++ [e]) := by
  intro before o g u after heq
  rcases List.eq_nil_or_concat after with rfl | ⟨after, last, rfl⟩
  · obtain ⟨rfl, hlast⟩ := List.append_inj' heq rfl
    exact he o g u (List.singleton_inj.1 hlast)
  · rw [List.concat_eq_append, ← List.cons_append, ← List.append_assoc] at heq
    exact h before o g u after (List.append_inj' heq rfl).1

/-- The store agrees with the log, whose uses were all authorized. -/
structure Kept (P : O → G → U → Prop) (store : O → List G) (log : List (Entry O G U)) : Prop where
  perm : ∀ o, (store o).Perm (held log o)
  authorized : Authorized P log

namespace Kept

variable {store store' : O → List G} {o : O} {g : G}

theorem grant (h : Kept P store log) (hnew : (store' o).Perm (g :: store o))
    (hother : ∀ o', o' ≠ o → store' o' = store o') : Kept P store' (log ++ [.granted o g]) where
  perm o' := by
    rw [held_append, Entry.after]
    split_ifs with ho
    · rw [← ho]
      exact hnew.trans ((h.perm o).cons g)
    · rw [hother o' (Ne.symm ho)]
      exact h.perm o'
  authorized := h.authorized.append fun _ _ _ he => by cases he

theorem revoke (h : Kept P store log) (hold : (store o).Perm (g :: store' o))
    (hother : ∀ o', o' ≠ o → store' o' = store o') : Kept P store' (log ++ [.revoked o g]) where
  perm o' := by
    rw [held_append, Entry.after]
    split_ifs with ho
    · rw [← ho]
      have herase := (hold.symm.trans (h.perm o)).erase g
      rwa [List.erase_cons_head] at herase
    · rw [hother o' (Ne.symm ho)]
      exact h.perm o'
  authorized := h.authorized.append fun _ _ _ he => by cases he

theorem clear (h : Kept P store log) (hnone : store' o = [])
    (hother : ∀ o', o' ≠ o → store' o' = store o') : Kept P store' (log ++ [.cleared o]) where
  perm o' := by
    rw [held_append, Entry.after]
    split_ifs with ho
    · rw [← ho, hnone]
    · rw [hother o' (Ne.symm ho)]
      exact h.perm o'
  authorized := h.authorized.append fun _ _ _ he => by cases he

theorem use (h : Kept P store log) (hg : g ∈ store o) {u : U} (hu : P o g u) :
    Kept P store (log ++ [.used o g u]) where
  perm o' := by
    rw [held_append]
    exact h.perm o'
  authorized := h.authorized.append fun o' g' u' he => by
    cases he
    exact ⟨(h.perm o).mem_iff.1 hg, hu⟩

end Kept

end Grants
