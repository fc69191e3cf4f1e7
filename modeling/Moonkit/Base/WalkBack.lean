import Mathlib.Data.Nat.Notation
import Mathlib.Data.List.Chain
import Mathlib.Logic.Relation
import Mathlib.Order.Basic

/-!
# Walking back along parents

A store holds nodes by key, and a node knows the key of its parent. `walk` goes back a number of
steps. `search` goes back as far and collects what it passes, oldest first, unless it is stopped at
one of these nodes or finds a key that is not in the store, whichever is first. Where nodes know
their parents themselves, what grows from parent to child grows from ancestors to descendants.
-/

namespace WalkBack

variable {K N : Type*} (store : K → Option N) (parent : N → K) (stops : N → Bool)

/-- The node `n` steps back from the one at `k`. -/
def walk : ℕ → K → Option N
  | 0, k => store k
  | n + 1, k => (store k).bind fun x => walk n (parent x)

/-- How a search ends. -/
inductive Search (N : Type*) where
  | missing
  | stopped
  | found (x : N) (newer : List N)

/-- Go back `n` steps from the node at `k`, unless stopped at a node before the last. -/
def search : ℕ → K → List N → Search N
  | 0, k, newer =>
    match store k with
    | some x => .found x newer
    | none => .missing
  | n + 1, k, newer =>
    match store k with
    | some x => if stops x then .stopped else search n (parent x) (x :: newer)
    | none => .missing

/-- Each node of the list is the parent of the next one. -/
def Linked (key : N → K) (l : List N) : Prop :=
  l.IsChain fun older newer => parent newer = key older

variable {store parent stops} {k : K} {x : N}

theorem walk_succ (h : store k = some x) (n : ℕ) :
    walk store parent (n + 1) k = walk store parent n (parent x) := by
  rw [walk, h, Option.bind_some]

theorem walk_of_missing (h : store k = none) : ∀ n, walk store parent n k = none
  | 0 => h
  | n + 1 => by rw [walk, h, Option.bind_none]

theorem search_succ (h : store k = some x) (hstops : stops x = false) (n : ℕ) (newer : List N) :
    search store parent stops (n + 1) k newer =
      search store parent stops n (parent x) (x :: newer) := by
  simp only [search, h, hstops, Bool.false_eq_true, if_false]

theorem search_zero_eq_found {newer l : List N}
    (hfound : search store parent stops 0 k newer = .found x l) : store k = some x ∧ l = newer := by
  rcases h : store k with _ | y
  · simp [search, h] at hfound
  · simp only [search, h, Search.found.injEq] at hfound
    exact ⟨congrArg some hfound.1, hfound.2.symm⟩

/-- A search that finds a node further back has passed one, and goes on from its parent. -/
theorem search_succ_eq_found {n : ℕ} {newer l : List N}
    (hfound : search store parent stops (n + 1) k newer = .found x l) :
    ∃ y, store k = some y ∧ search store parent stops n (parent y) (y :: newer) = .found x l := by
  rcases h : store k with _ | y
  · simp [search, h] at hfound
  · rcases hstops : stops y with _ | _
    · exact ⟨y, rfl, search_succ h hstops n newer ▸ hfound⟩
    · simp [search, h, hstops] at hfound

theorem walk_isSome_of_le : ∀ {n j : ℕ} {k : K}, j ≤ n → (walk store parent n k).isSome →
    (walk store parent j k).isSome
  | 0, j, k, hj, h => by rwa [Nat.le_zero.1 hj]
  | n + 1, j, k, hj, h => by
    rcases hk : store k with _ | x
    · rw [walk_of_missing hk] at h
      cases h
    · cases j with
      | zero => rw [walk, hk, Option.isSome_some]
      | succ j =>
        rw [walk_succ hk] at h ⊢
        exact walk_isSome_of_le (Nat.le_of_succ_le_succ hj) h

/-- A search is stopped exactly at a node that it would pass. -/
theorem search_stopped_iff : ∀ (n : ℕ) (k : K) (newer : List N),
    search store parent stops n k newer = .stopped ↔
      ∃ j < n, ∃ x, walk store parent j k = some x ∧ stops x
  | 0, k, newer => by
    cases h : store k <;> simp [search, h]
  | n + 1, k, newer => by
    rw [Nat.exists_lt_succ_left]
    rcases h : store k with _ | x
    · simp [search, h, walk_of_missing h]
    · rcases hstops : stops x with _ | _
      · rw [search_succ h hstops, search_stopped_iff n]
        simp [walk, h, hstops]
      · simp [search, walk, h, hstops]

/-- A search ends at a node exactly where the node is in the store and nothing before it stops. -/
theorem search_found_iff : ∀ (n : ℕ) (k : K) (newer : List N),
    (∃ x l, search store parent stops n k newer = .found x l) ↔ (walk store parent n k).isSome ∧
      ∀ j < n, ∀ x, walk store parent j k = some x → stops x = false
  | 0, k, newer => by
    cases h : store k <;> simp [search, h, walk]
  | n + 1, k, newer => by
    rw [Nat.forall_lt_succ_left]
    rcases h : store k with _ | x
    · simp [search, h, walk_of_missing h]
    · rcases hstops : stops x with _ | _
      · rw [search_succ h hstops, search_found_iff n]
        simp [walk, h, hstops]
      · simp [search, walk, h, hstops]

/-- What a search finds is what it passed, oldest first. -/
theorem search_found : ∀ {n : ℕ} {k : K} {newer l : List N} {x : N},
    search store parent stops n k newer = .found x l → walk store parent n k = some x ∧
      l.map some = ((List.range n).reverse.map fun j => walk store parent j k) ++ newer.map some
  | 0, k, newer, l, x, hfound => by
    obtain ⟨h, rfl⟩ := search_zero_eq_found hfound
    exact ⟨h, rfl⟩
  | n + 1, k, newer, l, x, hfound => by
    obtain ⟨y, h, hrest⟩ := search_succ_eq_found hfound
    obtain ⟨hx, hl⟩ := search_found hrest
    refine ⟨(walk_succ h n).trans hx, hl.trans ?_⟩
    simp [List.range_succ_eq_map, walk, h, Function.comp_def]

/-- What a search finds is linked, if the store has its nodes under their own keys. -/
theorem search_linked {key : N → K} (hkey : ∀ k x, store k = some x → key x = k) :
    ∀ {n : ℕ} {k : K} {newer l : List N} {x : N},
    search store parent stops n k newer = .found x l → Linked parent key newer →
      (∀ y ∈ newer.head?, parent y = k) → Linked parent key (x :: l)
  | 0, k, newer, l, x, hfound, hlinked, hhead => by
    obtain ⟨h, rfl⟩ := search_zero_eq_found hfound
    exact List.isChain_cons.2 ⟨fun z hz => (hhead z hz).trans (hkey k x h).symm, hlinked⟩
  | n + 1, k, newer, l, x, hfound, hlinked, hhead => by
    obtain ⟨y, h, hrest⟩ := search_succ_eq_found hfound
    refine search_linked hkey hrest
      (List.isChain_cons.2 ⟨fun z hz => (hhead z hz).trans (hkey k y h).symm, hlinked⟩) ?_
    intro z hz
    rw [List.head?_cons, Option.mem_some_iff] at hz
    rw [hz]

section Ancestors

variable {parent : N → Option N} {x y : N}

/-- `x` is reached from `y` by one or more steps to a parent. -/
def Ancestor (parent : N → Option N) (x y : N) : Prop :=
  Relation.TransGen (fun child p => parent child = some p) y x

theorem Ancestor.lt {α : Type*} [Preorder α] {f : N → α} (h : Ancestor parent x y)
    (hf : ∀ {p child}, parent child = some p → f p < f child) : f x < f y := by
  induction h with
  | single hp => exact hf hp
  | tail _ hp ih => exact (hf hp).trans ih

end Ancestors

end WalkBack
