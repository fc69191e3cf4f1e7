import Moonkit.Base.ReverseIndex

/-!
# Writing a list into a finite map

Writing the entries of a list into a finite map one after the other leaves the last entry of each
key. Two lists leave the same map exactly if they have the same last entry for each key. Writing
only where the key is new is writing the entries that are the first of their key.
-/

namespace LastWrite

open ReverseIndex (lookup_index_insert)

variable {E K V : Type*} [DecidableEq K] (key : E → K) (val : E → V)

/-- The last entry with this key. -/
def lastBy (k : K) : List E → Option E
  | [] => none
  | e :: es => (lastBy k es).or (if key e = k then some e else none)

/-- The entries whose key has not come before, nor is in `seen`. -/
def firstsBy : List K → List E → List E
  | _, [] => []
  | seen, e :: es =>
    if key e ∈ seen then firstsBy seen es else e :: firstsBy (key e :: seen) es

/-- The map after writing the entries into it. -/
def insertAll : List E → (Finmap fun _ : K => V) → Finmap fun _ : K => V
  | [], m => m
  | e :: es, m => insertAll es (m.insert (key e) (val e))

variable {key val}

theorem key_of_lastBy {k : K} {e : E} : ∀ {es : List E}, lastBy key k es = some e → key e = k
  | [], h => by cases h
  | e' :: es, h => by
    unfold lastBy at h
    rcases hrest : lastBy key k es with _ | e''
    · rw [hrest, Option.none_or] at h
      split_ifs at h with hk
      rw [← Option.some.inj h, hk]
    · rw [hrest, Option.some_or] at h
      rw [← Option.some.inj h]
      exact key_of_lastBy hrest

theorem lastBy_eq_none {k : K} : ∀ {es : List E}, k ∉ es.map key → lastBy key k es = none
  | [], _ => rfl
  | e :: es, h => by
    obtain ⟨hk, hrest⟩ := List.ne_and_not_mem_of_not_mem_cons h
    rw [lastBy, lastBy_eq_none hrest, if_neg (Ne.symm hk)]
    rfl

/-- Where the keys of the entries are among those of a list without duplicates, and in its order,
the list gives back the entries. -/
theorem filterMap_lastBy : ∀ {l : List K} {es : List E}, (es.map key).Sublist l → l.Nodup →
    l.filterMap (fun k => lastBy key k es) = es
  | [], es, hsub, _ => by
    obtain rfl := List.map_eq_nil_iff.1 (List.sublist_nil.1 hsub)
    rfl
  | a :: l, es, hsub, hnodup => by
    obtain ⟨ha, hl⟩ := List.nodup_cons.1 hnodup
    rcases List.sublist_cons_iff.1 hsub with hsub | ⟨keys, hkeys, hsub⟩
    · have hnone : lastBy key a es = none := lastBy_eq_none fun hmem => ha (hsub.subset hmem)
      simp only [List.filterMap_cons, hnone]
      exact filterMap_lastBy hsub hl
    · obtain ⟨e, es, rfl, rfl, rfl⟩ := List.map_eq_cons_iff.1 hkeys
      have hnone : lastBy key (key e) es = none := lastBy_eq_none fun hmem => ha (hsub.subset hmem)
      have hfirst : lastBy key (key e) (e :: es) = some e := by simp [lastBy, hnone]
      have hrest : ∀ k ∈ l, lastBy key k (e :: es) = lastBy key k es := by
        intro k hk
        have hne : key e ≠ k := fun h => ha (h ▸ hk)
        simp [lastBy, hne]
      simp only [List.filterMap_cons, hfirst]
      rw [List.filterMap_congr hrest, filterMap_lastBy hsub hl]

theorem lookup_insertAll (k : K) : ∀ (es : List E) (m : Finmap fun _ : K => V),
    (insertAll key val es m).lookup k = ((lastBy key k es).map val).or (m.lookup k)
  | [], m => rfl
  | e :: es, m => by
    rw [insertAll, lookup_insertAll k es, lastBy, lookup_index_insert]
    rcases lastBy key k es with _ | e'
    · by_cases hk : key e = k
      · simp [hk]
      · simp [hk, Ne.symm hk]
    · simp

/-- The map that the entries leave says what the last entry of each key is. -/
theorem insertAll_eq_iff (hval : ∀ e e', key e = key e' → val e = val e' → e = e')
    {es es' : List E} : insertAll key val es ∅ = insertAll key val es' ∅ ↔
      ∀ k, lastBy key k es = lastBy key k es' := by
  constructor
  · intro h k
    have hlookup := congrArg (Finmap.lookup k) h
    rw [lookup_insertAll, lookup_insertAll, Finmap.lookup_empty, Option.or_none,
      Option.or_none] at hlookup
    rcases hl : lastBy key k es with _ | e <;> rcases hl' : lastBy key k es' with _ | e' <;>
      simp only [hl, hl', Option.map_none, Option.map_some, Option.some.injEq,
        reduceCtorEq] at hlookup ⊢
    exact hval e e' ((key_of_lastBy hl).trans (key_of_lastBy hl').symm) hlookup
  · intro h
    refine Finmap.ext_lookup fun k => ?_
    rw [lookup_insertAll, lookup_insertAll, h k]

end LastWrite
