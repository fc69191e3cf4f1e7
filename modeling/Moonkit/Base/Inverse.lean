import Moonkit.Base.ReverseIndex

/-!
# Mutually inverse maps

Two finite maps, each of which undoes the other. Inserting a pair into both keeps them so exactly
when both sides of the pair are new; giving a key another value, and taking the old value out of
the other map afterwards, exactly when the value is new.
-/


open ReverseIndex (lookup_index_insert lookup_index_erase)

variable {K V : Type*} [DecidableEq K] [DecidableEq V] {m : Finmap fun _ : K => V}
  {m' : Finmap fun _ : V => K} {k k' : K} {v w : V}

/-- The maps undo each other. -/
def MutualInverse (m : Finmap fun _ : K => V) (m' : Finmap fun _ : V => K) : Prop :=
  ∀ k v, m.lookup k = some v ↔ m'.lookup v = some k

namespace MutualInverse

theorem empty : MutualInverse (∅ : Finmap fun _ : K => V) ∅ := by
  intro k v
  simp

theorem lookup_none (h : MutualInverse m m') (hv : m'.lookup v = none) (k : K) :
    m.lookup k ≠ some v := by
  intro hk
  rw [(h k v).1 hk] at hv
  cases hv

theorem lookup_none' (h : MutualInverse m m') (hk : m.lookup k = none) (v : V) :
    m'.lookup v ≠ some k := by
  intro hv
  rw [(h k v).2 hv] at hk
  cases hk

theorem insert (h : MutualInverse m m') (hk : m.lookup k = none) (hv : m'.lookup v = none) :
    MutualInverse (m.insert k v) (m'.insert v k) := by
  intro a b
  rw [lookup_index_insert, lookup_index_insert]
  split_ifs with ha hb hb
  · simp [ha, hb]
  · subst ha
    simp [Ne.symm hb, lookup_none' h hk]
  · subst hb
    simp [Ne.symm ha, lookup_none h hv]
  · exact h a b

/-- A value that has a key breaks the maps when it gets another one. -/
theorem not_insert (h : MutualInverse m m') (hk : m.lookup k = none) (hv : m'.lookup v = some k') :
    ¬ MutualInverse (m.insert k v) (m'.insert v k) := by
  intro hinsert
  have hk' : m.lookup k' = some v := (h k' v).2 hv
  have hne : k' ≠ k := by
    rintro rfl
    rw [hk] at hk'
    cases hk'
  have hlookup := (hinsert k' v).1 (by rw [Finmap.lookup_insert_of_ne _ hne, hk'])
  rw [Finmap.lookup_insert] at hlookup
  exact hne (Option.some.inj hlookup).symm

theorem erase (h : MutualInverse m m') (hk : m.lookup k = some v) :
    MutualInverse (m.erase k) (m'.erase v) := by
  intro a b
  rw [lookup_index_erase, lookup_index_erase]
  split_ifs with ha hb hb
  · simp
  · subst ha
    rw [← h a b, hk]
    simp [Ne.symm hb]
  · subst hb
    rw [h a b, (h k b).1 hk]
    simp [Ne.symm ha]
  · exact h a b

theorem replace (h : MutualInverse m m') (hk : m.lookup k = some v) (hw : m'.lookup w = none) :
    MutualInverse (m.insert k w) ((m'.insert w k).erase v) := by
  have hne : w ≠ v := by
    rintro rfl
    rw [(h k w).1 hk] at hw
    cases hw
  have hw' : (m'.erase v).lookup w = none := by rw [Finmap.lookup_erase_ne hne, hw]
  intro a b
  have hm : (m.insert k w).lookup a = ((m.erase k).insert k w).lookup a := by
    rw [lookup_index_insert, lookup_index_insert, lookup_index_erase]
    split_ifs <;> rfl
  have hm' : ((m'.insert w k).erase v).lookup b = ((m'.erase v).insert w k).lookup b := by
    rw [lookup_index_insert, lookup_index_erase, lookup_index_insert, lookup_index_erase]
    split_ifs with hv hw
    · exact absurd (hw.symm.trans hv) hne
    · rfl
    · rfl
    · rfl
  rw [hm, hm']
  exact insert (erase h hk) (Finmap.lookup_erase k m) hw' a b

/-- A key that is given a value that has a key, also where it is its own, breaks the maps. -/
theorem not_replace (h : MutualInverse m m') (hk : m.lookup k = some v)
    (hw : m'.lookup w = some k') : ¬ MutualInverse (m.insert k w) ((m'.insert w k).erase v) := by
  intro hreplace
  have hlookup := (hreplace k w).1 (Finmap.lookup_insert _)
  by_cases hwv : w = v
  · subst hwv
    rw [Finmap.lookup_erase] at hlookup
    cases hlookup
  · have hk' : m.lookup k' = some w := (h k' w).2 hw
    have hne : k' ≠ k := by
      rintro rfl
      rw [hk] at hk'
      exact hwv (Option.some.inj hk').symm
    have hlookup' := (hreplace k' w).1 (by rw [Finmap.lookup_insert_of_ne _ hne, hk'])
    rw [hlookup] at hlookup'
    exact hne (Option.some.inj hlookup').symm

end MutualInverse
