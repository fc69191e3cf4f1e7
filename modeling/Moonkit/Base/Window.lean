import Mathlib.Data.Finmap
import Mathlib.Data.List.DropRight

/-!
# Bounded windows

A map that keeps the last `n` entries of a log, with the list of its keys in the order they came.
`Window.Holds` says so; pushing a new key keeps it, where the oldest key goes once the window is
full. A `BoundedVec` carries its bound.
-/

/-- A list of at most `n` elements. -/
structure BoundedVec (α : Type) (n : ℕ) where
  val : List α
  length_le : val.length ≤ n

namespace BoundedVec

variable {α : Type} {n : ℕ}

instance : EmptyCollection (BoundedVec α n) := ⟨⟨[], Nat.zero_le n⟩⟩

/-- The first `n` elements of the list. -/
def truncateFrom (l : List α) : BoundedVec α n := ⟨l.take n, List.length_take_le n l⟩

theorem truncateFrom_val {l : List α} (h : l.length ≤ n) :
    (truncateFrom l : BoundedVec α n).val = l :=
  List.take_of_length_le h

end BoundedVec

namespace Window

/-- The last `n` of a list that grows: the oldest goes where there is no room. -/
theorem rtake_concat {α : Type*} (l : List α) (x : α) (n : ℕ) : (l ++ [x]).rtake n =
    if (l.rtake n).length + 1 ≤ n then l.rtake n ++ [x] else (l.rtake n ++ [x]).tail := by
  simp only [List.rtake, List.length_drop, List.length_append, List.length_singleton]
  split_ifs with hroom
  · rw [List.drop_append_of_le_length (by omega)]
    congr 2
    omega
  · rw [← List.drop_append_of_le_length (by omega), List.tail_drop]
    congr 1
    omega

variable {K V : Type*} [DecidableEq K] {n : ℕ} {log : List (K × V)} {m : Finmap fun _ : K => V}
  {keys : List K} {k : K} {v : V}

/-- The map has the last `n` entries of the log, and `keys` lists their keys. -/
structure Holds (n : ℕ) (log : List (K × V)) (m : Finmap fun _ : K => V) (keys : List K) :
    Prop where
  keys_eq : keys = (log.rtake n).map Prod.fst
  nodup : keys.Nodup
  entries : ∀ k v, m.lookup k = some v ↔ (k, v) ∈ log.rtake n

theorem holds_nil (n : ℕ) : Holds n ([] : List (K × V)) ∅ [] where
  keys_eq := by simp
  nodup := .nil
  entries := by simp

namespace Holds

theorem mem_keys (h : Holds n log m keys) : k ∈ keys ↔ (m.lookup k).isSome := by
  rw [Option.isSome_iff_exists, h.keys_eq]
  simp [h.entries]

theorem latest (h : Holds n log m keys) (hk : m.lookup k = some v) :
    ∃ before after, log = before ++ (k, v) :: after ∧ k ∉ after.map Prod.fst := by
  obtain ⟨w, after, hw⟩ := List.append_of_mem ((h.entries k v).1 hk)
  refine ⟨log.take (log.length - n) ++ w, after, ?_, ?_⟩
  · rw [List.append_assoc, ← hw]
    exact (List.take_append_drop _ _).symm
  · have hnodup := h.nodup
    rw [h.keys_eq, hw, List.map_append, List.map_cons] at hnodup
    exact (List.nodup_cons.1 hnodup.of_append_right).1

/-- A new key goes to the end of the list. -/
theorem nodup_concat (h : Holds n log m keys) (hk : m.lookup k = none) : (keys ++ [k]).Nodup := by
  have hmem : k ∉ keys := by simp [h.mem_keys, hk]
  exact List.Nodup.append h.nodup (List.nodup_singleton k) (by simpa using hmem)

theorem lookup_insert (h : Holds n log m keys) (hk : m.lookup k = none) (k' : K) (v' : V) :
    (m.insert k v).lookup k' = some v' ↔ (k', v') ∈ log.rtake n ++ [(k, v)] := by
  rw [List.mem_append, List.mem_singleton, Prod.mk.injEq]
  by_cases hk' : k' = k
  · subst hk'
    simp [← h.entries, hk, eq_comm]
  · simp [Finmap.lookup_insert_of_ne _ hk', hk', h.entries]

theorem push (h : Holds n log m keys) (hk : m.lookup k = none) (hroom : keys.length + 1 ≤ n) :
    Holds n (log ++ [(k, v)]) (m.insert k v) (keys ++ [k]) := by
  have hlength : (log.rtake n).length + 1 ≤ n := by
    rwa [h.keys_eq, List.length_map] at hroom
  refine ⟨?_, h.nodup_concat hk, fun k' v' => ?_⟩
  · rw [rtake_concat, if_pos hlength, List.map_append, ← h.keys_eq]
    rfl
  · rw [rtake_concat, if_pos hlength]
    exact h.lookup_insert hk k' v'

/-- Where the window is full, the oldest key and its entry go. -/
theorem push_evict (h : Holds n log m keys) (hk : m.lookup k = none) (hfull : n < keys.length + 1)
    {oldest : K} {rest : List K} (hrest : keys ++ [k] = oldest :: rest) :
    Holds n (log ++ [(k, v)]) ((m.insert k v).erase oldest) rest := by
  have hlength : ¬ (log.rtake n).length + 1 ≤ n := by
    rw [h.keys_eq, List.length_map] at hfull
    omega
  obtain ⟨u, entries, hentries⟩ : ∃ u entries, log.rtake n ++ [(k, v)] = u :: entries :=
    List.exists_cons_of_ne_nil (by simp)
  have hkeys : oldest :: rest = u.1 :: entries.map Prod.fst := by
    rw [← hrest, h.keys_eq, ← List.map_cons, ← hentries, List.map_append]
    rfl
  obtain ⟨rfl, rfl⟩ := List.cons.inj hkeys
  have hnodup : (u.1 :: entries.map Prod.fst).Nodup := hrest ▸ h.nodup_concat hk
  obtain ⟨hfresh, hnodup⟩ := List.nodup_cons.1 hnodup
  have hwindow : (log ++ [(k, v)]).rtake n = entries := by
    rw [rtake_concat, if_neg hlength, hentries, List.tail_cons]
  refine ⟨by rw [hwindow], hnodup, fun k' v' => ?_⟩
  rw [hwindow]
  by_cases hk' : k' = u.1
  · subst hk'
    rw [Finmap.lookup_erase]
    refine ⟨by simp, fun hmem => absurd (List.mem_map_of_mem hmem) hfresh⟩
  · rw [Finmap.lookup_erase_ne hk', h.lookup_insert hk, hentries, List.mem_cons]
    refine ⟨fun hor => hor.resolve_left fun hu => hk' (by rw [← hu]), .inr⟩

end Holds

end Window
