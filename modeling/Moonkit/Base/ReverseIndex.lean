import Mathlib.Data.Finmap

/-!
# Reverse indices

A map holds values by key, each with an owner, and an index gives one key to an owner. The index is
sound if the owner owns the key it gives, and complete if it has an entry for every owner.
Registering, moving and removing a value keep it sound. Only removing can make it incomplete: it
does when the owner has another key. None of them loses or gains more than one entry of the map.
-/

namespace ReverseIndex

variable {K A V : Type*} [DecidableEq K] (owner : V → A)

/-- The value at the key belongs to `a`. -/
def Owns (m : Finmap fun _ : K => V) (a : A) (k : K) : Prop :=
  ∃ v, m.lookup k = some v ∧ owner v = a

variable {owner} {m : Finmap fun _ : K => V} {k k' : K} {v : V} {a : A}

theorem owns_insert : Owns owner (m.insert k v) a k' ↔
    k' = k ∧ owner v = a ∨ k' ≠ k ∧ Owns owner m a k' := by
  unfold Owns
  by_cases hk : k' = k
  · subst hk
    simp
  · simp [Finmap.lookup_insert_of_ne _ hk, hk]

theorem owns_erase : Owns owner (m.erase k) a k' ↔ k' ≠ k ∧ Owns owner m a k' := by
  unfold Owns
  by_cases hk : k' = k
  · subst hk
    simp
  · simp [Finmap.lookup_erase_ne hk, hk]

section Lost

/-- The entries of `m` that `m'` does not have. -/
def lost (m m' : Finmap fun _ : K => V) : Set (K × V) :=
  {e | m.lookup e.1 = some e.2 ∧ m'.lookup e.1 ≠ some e.2}

theorem lost_self (m : Finmap fun _ : K => V) : lost m m = ∅ :=
  Set.eq_empty_of_forall_notMem fun _ he => he.2 he.1

theorem lost_trans (m m₁ m' : Finmap fun _ : K => V) : lost m m' ⊆ lost m m₁ ∪ lost m₁ m' := by
  rintro e ⟨hm, hm'⟩
  by_cases h₁ : m₁.lookup e.1 = some e.2
  · exact .inr ⟨h₁, hm'⟩
  · exact .inl ⟨hm, h₁⟩

theorem lost_erase (hv : m.lookup k = some v) : lost m (m.erase k) ⊆ {(k, v)} := by
  rintro ⟨k', v'⟩ ⟨hm, herase⟩
  by_cases hk : k' = k
  · subst hk
    simp_all
  · exact absurd hm (by rwa [Finmap.lookup_erase_ne hk] at herase)

theorem lost_of_erase : lost (m.erase k) m = ∅ := by
  refine Set.eq_empty_of_forall_notMem fun ⟨k', v'⟩ ⟨herase, hm⟩ => hm ?_
  by_cases hk : k' = k
  · subst hk
    simp at herase
  · rwa [Finmap.lookup_erase_ne hk] at herase

theorem lost_insert (hfree : m.lookup k = none) : lost m (m.insert k v) = ∅ := by
  refine Set.eq_empty_of_forall_notMem fun ⟨k', v'⟩ ⟨hm, hinsert⟩ => hinsert ?_
  by_cases hk : k' = k
  · subst hk
    simp [hfree] at hm
  · rwa [Finmap.lookup_insert_of_ne _ hk]

theorem lost_of_insert : lost (m.insert k v) m ⊆ {(k, v)} := by
  rintro ⟨k', v'⟩ ⟨hinsert, hm⟩
  by_cases hk : k' = k
  · subst hk
    simp_all
  · exact absurd hinsert (by rwa [Finmap.lookup_insert_of_ne _ hk])

theorem lost_move {w : V} (hv : m.lookup k = some v) (hfree : (m.erase k).lookup k' = none) :
    lost m ((m.erase k).insert k' w) ⊆ {(k, v)} := by
  refine (lost_trans m (m.erase k) _).trans (Set.union_subset (lost_erase hv) ?_)
  rw [lost_insert hfree]
  exact Set.empty_subset _

theorem lost_of_move {w : V} : lost ((m.erase k).insert k' w) m ⊆ {(k', w)} := by
  refine (lost_trans _ (m.erase k) m).trans (Set.union_subset lost_of_insert ?_)
  rw [lost_of_erase]
  exact Set.empty_subset _

end Lost

variable [DecidableEq A] {index : Finmap fun _ : A => K}

/-- The keys that the index gives belong to the owners it gives them for. -/
def Sound (owner : V → A) (m : Finmap fun _ : K => V) (index : Finmap fun _ : A => K) : Prop :=
  ∀ a k, index.lookup a = some k → Owns owner m a k

/-- Every owner has an entry in the index. -/
def Complete (owner : V → A) (m : Finmap fun _ : K => V) (index : Finmap fun _ : A => K) : Prop :=
  ∀ a k, Owns owner m a k → (index.lookup a).isSome

omit [DecidableEq K] in
theorem lookup_index_insert (a' : A) : (index.insert a k).lookup a' =
    if a' = a then some k else index.lookup a' := by
  split_ifs with ha
  · subst ha
    exact Finmap.lookup_insert index
  · exact Finmap.lookup_insert_of_ne index ha

omit [DecidableEq K] in
theorem lookup_index_erase (a' : A) : (index.erase a).lookup a' =
    if a' = a then none else index.lookup a' := by
  split_ifs with ha
  · subst ha
    exact Finmap.lookup_erase a' index
  · exact Finmap.lookup_erase_ne ha

namespace Sound

/-- A value under a new key becomes the one its owner is given. -/
theorem insert (h : Sound owner m index) (hfree : m.lookup k = none) :
    Sound owner (m.insert k v) (index.insert (owner v) k) := by
  intro a k' hlookup
  rw [lookup_index_insert] at hlookup
  rw [owns_insert]
  split_ifs at hlookup with ha
  · exact .inl ⟨(Option.some.inj hlookup).symm, ha.symm⟩
  · refine .inr ⟨?_, h a k' hlookup⟩
    rintro rfl
    obtain ⟨w, hw, -⟩ := h a k' hlookup
    simp [hfree] at hw

theorem erase (h : Sound owner m index) (hv : m.lookup k = some v) :
    Sound owner (m.erase k) (index.erase (owner v)) := by
  intro a k' hlookup
  rw [lookup_index_erase] at hlookup
  rw [owns_erase]
  split_ifs at hlookup with ha
  refine ⟨?_, h a k' hlookup⟩
  rintro rfl
  obtain ⟨w, hw, rfl⟩ := h a k' hlookup
  rw [hv, Option.some.injEq] at hw
  exact ha (congrArg owner hw).symm

/-- A value moves to a new key, which may be the old one, and stays with its owner. -/
theorem move (h : Sound owner m index) {w : V} (hv : m.lookup k = some v)
    (hfree : (m.erase k).lookup k' = none) (hw : owner w = owner v) :
    Sound owner ((m.erase k).insert k' w) (index.insert (owner v) k') := by
  intro a k'' hlookup
  refine (h.erase hv).insert hfree a k'' ?_
  rw [lookup_index_insert] at hlookup ⊢
  rw [hw]
  split_ifs at hlookup ⊢ with ha
  · exact hlookup
  · rw [lookup_index_erase, if_neg ha]
    exact hlookup

end Sound

namespace Complete

theorem insert (h : Complete owner m index) :
    Complete owner (m.insert k v) (index.insert (owner v) k) := by
  intro a k' hown
  rw [owns_insert] at hown
  rw [lookup_index_insert]
  split_ifs with ha
  · rfl
  · rcases hown with ⟨-, rfl⟩ | ⟨-, hown⟩
    · exact absurd rfl ha
    · exact h a k' hown

theorem move (h : Complete owner m index) {w : V} (hw : owner w = owner v) :
    Complete owner ((m.erase k).insert k' w) (index.insert (owner v) k') := by
  rw [← hw]
  exact insert fun a k'' hown => h a k'' (owns_erase.1 hown).2

/-- Removing the only value of its owner keeps the index complete. -/
theorem erase (h : Complete owner m index) (honly : ∀ k', k' ≠ k → ¬ Owns owner m (owner v) k') :
    Complete owner (m.erase k) (index.erase (owner v)) := by
  intro a k' hown
  obtain ⟨hne, hown⟩ := owns_erase.1 hown
  rw [lookup_index_erase]
  split_ifs with ha
  · subst ha
    exact absurd hown (honly k' hne)
  · exact h a k' hown

/-- Removing one of several values of its owner does not. -/
theorem not_erase (hne : k' ≠ k) (hown : Owns owner m (owner v) k') :
    ¬ Complete owner (m.erase k) (index.erase (owner v)) := by
  intro h
  have hlookup := h (owner v) k' (owns_erase.2 ⟨hne, hown⟩)
  rw [lookup_index_erase, if_pos rfl] at hlookup
  simp at hlookup

end Complete

end ReverseIndex
