import Moonkit.RandomnessRun

/-!
# The results map

The pallet touches `randomnessResults` in three ways: a request joins the result of its key, a
request leaves it, and the randomness of a key is filled in. Each is a function of the map, with
what it leaves under every key.
-/

namespace Moonkit

namespace Randomness

variable {AccountId Hash Ledger : Type} {C : Config AccountId Hash Ledger}

abbrev Results (C : Config AccountId Hash Ledger) :=
  StorageMap (RequestType C) (RandomnessResult Hash)

namespace Results

/-- The results with one more request for `key`. -/
def join (results : Results C) (key : RequestType C) : Results C :=
  results.insert key ((results.lookup key).elim .new RandomnessResult.incrementRequestCount)

/-- The results with one request less for `key`. -/
def leave (results : Results C) (key : RequestType C) : Results C :=
  match (results.lookup key).bind RandomnessResult.decrementRequestCount with
  | some result => results.insert key result
  | none => results.erase key

/-- The results with the randomness of `key` filled in, if anyone waits for it. -/
def fill (results : Results C) (key : RequestType C) (randomness : Hash) : Results C :=
  match results.lookup key with
  | some result => results.insert key { result with randomness := some randomness }
  | none => results

end Results

theorem insert_erase_self (results : Results C) (key : RequestType C)
    (result : RandomnessResult Hash) :
    (results.erase key).insert key result = results.insert key result := by
  refine Finmap.ext_lookup fun k => ?_
  by_cases hk : k = key
  · subst hk
    rw [Finmap.lookup_insert, Finmap.lookup_insert]
  · rw [Finmap.lookup_insert_of_ne _ hk, Finmap.lookup_insert_of_ne _ hk,
      Finmap.lookup_erase_ne hk]

section Decrement

variable {result result' : RandomnessResult Hash}

theorem decrement_of_eq (h : result.requestCount.val = 1) :
    result.decrementRequestCount = none := by
  have hs : result.requestCount.checkedSub (.lit 1) = some 0 :=
    Uint.checkedSub_eq_some.2 (by simp [h])
  simp only [RandomnessResult.decrementRequestCount, hs, if_true]

theorem decrement_of_lt (h : 1 < result.requestCount.val) :
    ∃ newCount : U64, newCount.val + 1 = result.requestCount.val
      ∧ result.decrementRequestCount = some { result with requestCount := newCount } := by
  rcases hs : result.requestCount.checkedSub (.lit 1) with _ | newCount
  · have := Uint.checkedSub_eq_none.1 hs
    simp only at this
    omega
  · have hsub := Uint.checkedSub_eq_some.1 hs
    have h0 : newCount ≠ 0 := by
      rintro rfl
      simp only [Uint.val_zero] at hsub
      omega
    exact ⟨newCount, hsub, by simp only [RandomnessResult.decrementRequestCount, hs, if_neg h0]⟩

theorem decrement_randomness (h : result.decrementRequestCount = some result') :
    result'.randomness = result.randomness := by
  unfold RandomnessResult.decrementRequestCount at h
  split at h
  · split_ifs at h
    cases h
    rfl
  · cases h

end Decrement

namespace Results

variable {results : Results C} {key k : RequestType C} {randomness : Hash}

/-- The randomness stored under a key. -/
def held (results : Results C) (k : RequestType C) : Option Hash :=
  (results.lookup k).bind RandomnessResult.randomness

theorem lookup_join_self : (join results key).lookup key
    = some ((results.lookup key).elim .new RandomnessResult.incrementRequestCount) :=
  Finmap.lookup_insert _

theorem lookup_join_of_ne (hk : k ≠ key) : (join results key).lookup k = results.lookup k :=
  Finmap.lookup_insert_of_ne _ hk

theorem lookup_leave_of_ne (hk : k ≠ key) : (leave results key).lookup k = results.lookup k := by
  unfold leave
  split
  · exact Finmap.lookup_insert_of_ne _ hk
  · exact Finmap.lookup_erase_ne hk

theorem lookup_leave_self : (leave results key).lookup key
    = (results.lookup key).bind RandomnessResult.decrementRequestCount := by
  unfold leave
  split
  · rename_i result hr
    rw [Finmap.lookup_insert, hr]
  · rename_i hr
    rw [Finmap.lookup_erase, hr]

/-- A result that is left was there before, with the same randomness. -/
theorem lookup_of_leave {result : RandomnessResult Hash}
    (h : (leave results key).lookup k = some result) :
    ∃ result₀, results.lookup k = some result₀ ∧ result.randomness = result₀.randomness := by
  by_cases hk : k = key
  · subst hk
    rw [lookup_leave_self] at h
    obtain ⟨result₀, hr, hd⟩ := Option.bind_eq_some_iff.1 h
    exact ⟨result₀, hr, decrement_randomness hd⟩
  · rw [lookup_leave_of_ne hk] at h
    exact ⟨result, h, rfl⟩

theorem lookup_fill_self : (fill results key randomness).lookup key
    = (results.lookup key).map fun result => { result with randomness := some randomness } := by
  unfold fill
  rcases hr : results.lookup key with _ | result
  · simpa using hr
  · exact Finmap.lookup_insert _

theorem lookup_fill_of_ne (hk : k ≠ key) :
    (fill results key randomness).lookup k = results.lookup k := by
  unfold fill
  rcases results.lookup key with _ | result
  · rfl
  · exact Finmap.lookup_insert_of_ne _ hk

theorem held_join : (join results key).held k = results.held k := by
  unfold held
  by_cases hk : k = key
  · subst hk
    rw [lookup_join_self]
    rcases results.lookup k with _ | result <;> rfl
  · rw [lookup_join_of_ne hk]

theorem held_leave (h : (leave results key).held k = some randomness) :
    results.held k = some randomness := by
  obtain ⟨result, hl, hrand⟩ := Option.bind_eq_some_iff.1 h
  obtain ⟨result₀, hl₀, hsame⟩ := lookup_of_leave hl
  exact Option.bind_eq_some_iff.2 ⟨result₀, hl₀, hsame.symm.trans hrand⟩

theorem held_fill_of_ne (hk : k ≠ key) : (fill results key randomness).held k = results.held k := by
  unfold held
  rw [lookup_fill_of_ne hk]

theorem held_fill_self {result : RandomnessResult Hash} (h : results.lookup key = some result) :
    (fill results key randomness).held key = some randomness := by
  unfold held
  rw [lookup_fill_self, h]
  rfl

/-- Where there is no result, leaving and filling make none. -/
theorem lookup_leave_none (h : results.lookup k = none) : (leave results key).lookup k = none := by
  rcases hl : (leave results key).lookup k with _ | result
  · rfl
  · obtain ⟨result₀, hl₀, -⟩ := lookup_of_leave hl
    simp [h] at hl₀

theorem lookup_fill_none (h : results.lookup k = none) :
    (fill results key randomness).lookup k = none := by
  by_cases hk : k = key
  · subst hk
    rw [lookup_fill_self, h, Option.map_none]
  · rw [lookup_fill_of_ne hk, h]

theorem isSome_held_fill (h : (results.held k).isSome) :
    ((fill results key randomness).held k).isSome := by
  by_cases hk : k = key
  · subst hk
    obtain ⟨v, hv⟩ := Option.isSome_iff_exists.1 h
    obtain ⟨result, hl, -⟩ := Option.bind_eq_some_iff.1 hv
    rw [held_fill_self hl, Option.isSome_some]
  · rwa [held_fill_of_ne hk]

theorem isSome_held_leave {result : RandomnessResult Hash} (h : (results.held k).isSome)
    (hl : (leave results key).lookup k = some result) :
    ((leave results key).held k).isSome := by
  obtain ⟨result₀, hl₀, hsame⟩ := lookup_of_leave hl
  simpa only [held, hl, hl₀, Option.bind_some, hsame] using h

end Results

abbrev State.held (s : State C) (k : RequestType C) : Option Hash :=
  Results.held s.randomnessResults k

section Counted

def resultKey (r : RequestState C) : RequestType C := r.request.info.intoType

def resultCount (result : RandomnessResult Hash) : ℕ := result.requestCount.val

/-- Every result counts the stored requests that wait for it. -/
abbrev Counted (requests : StorageMap RequestId (RequestState C)) (results : Results C) : Prop :=
  RefCount.Counted resultKey resultCount requests results

variable {requests : StorageMap RequestId (RequestState C)} {results : Results C}
  {id n : RequestId} {r : RequestState C} {randomness : Hash}

/-- A request that is stored under the next id joins its result. The count does not saturate,
as there are at most as many requests as ids below the next one. -/
theorem counted_join (hc : Counted requests results)
    (hlt : ∀ id r, requests.lookup id = some r → id.val < n.val) (hn : n.val + 1 ≤ 2 ^ 64 - 1) :
    Counted (requests.insert n r) (results.join (resultKey r)) := by
  have hnew : requests.lookup n = none := by
    rcases hl : requests.lookup n with _ | r'
    · rfl
    · exact absurd (hlt n r' hl) (lt_irrefl _)
  have hle : RefCount.holders resultKey requests (resultKey r) ≤ n.val :=
    Finmap.total_le_of_keys_lt Uint.val_injective (fun _ => by split_ifs <;> omega) hlt
  refine hc.acquire hnew ?_
  rcases hl : results.lookup (resultKey r) with _ | result
  · rw [hc.absent _ hl]
    rfl
  · have hr := hc.exact_count _ _ hl
    simp only [resultCount, Option.elim_some, RandomnessResult.incrementRequestCount,
      Uint.saturatingAdd_val] at hr ⊢
    omega

/-- A stored request leaves its result when it is removed. -/
theorem counted_leave (hc : Counted requests results) (hr : requests.lookup id = some r)
    {key : RequestType C} (hk : resultKey r = key) :
    Counted (requests.erase id) (results.leave key) := by
  subst hk
  obtain ⟨result, hl, hcount⟩ := hc.lookup_key hr
  have hpos := hc.held _ _ hl
  unfold Results.leave
  rw [hl, Option.bind_some]
  unfold resultCount at hcount hpos
  rcases Nat.lt_or_eq_of_le (Nat.succ_le_of_lt hpos) with h1 | h1
  · obtain ⟨newCount, hsub, hd⟩ := decrement_of_lt h1
    rw [hd]
    refine hc.release hr ?_ ?_
    · simp only [resultCount]
      omega
    · simp only [resultCount]
      omega
  · rw [decrement_of_eq h1.symm]
    exact hc.release_last hr (by omega)

theorem counted_fill (hc : Counted requests results) (k : RequestType C) :
    Counted requests (results.fill k randomness) := by
  unfold Results.fill
  split
  · rename_i result hl
    exact hc.touch hl rfl
  · exact hc

end Counted

end Randomness

end Moonkit
