import Moonkit.Base.Total

/-!
# Reference counts

Holders in one finite map share entries of another: the holder `h` uses the entry under `key h`,
and an entry carries the number of its holders. `Counted` says that the numbers are right and that
an entry is there exactly while it has a holder; the rules below are the ways of taking hold of an
entry, letting it go, and changing a holder or an entry without touching the numbers.
-/

namespace RefCount

variable {I K H S : Type*} [DecidableEq I] [DecidableEq K]

/-- The number of holders of `k`. -/
def holders (key : H → K) (m : Finmap fun _ : I => H) (k : K) : ℕ :=
  m.total fun h => if key h = k then 1 else 0

/-- Every shared entry counts its holders and has one, and a key without an entry has none. -/
structure Counted (key : H → K) (count : S → ℕ) (m : Finmap fun _ : I => H)
    (shared : Finmap fun _ : K => S) : Prop where
  exact_count : ∀ k r, shared.lookup k = some r → count r = holders key m k
  held : ∀ k r, shared.lookup k = some r → 0 < count r
  absent : ∀ k, shared.lookup k = none → holders key m k = 0

variable (key : H → K) {count : S → ℕ} {m : Finmap fun _ : I => H}
  {shared : Finmap fun _ : K => S} {i : I} {h h' : H} {k : K} {r r' : S}

theorem holders_insert_new (hi : m.lookup i = none) (k : K) :
    holders key (m.insert i h) k = holders key m k + if key h = k then 1 else 0 :=
  Finmap.total_insert_new hi

theorem holders_erase (hi : m.lookup i = some h) (k : K) :
    holders key (m.erase i) k + (if key h = k then 1 else 0) = holders key m k :=
  Finmap.total_erase_add (f := fun h => if key h = k then 1 else 0) hi

theorem holders_update (hi : m.lookup i = some h) (hk : key h' = key h) (k : K) :
    holders key (m.insert i h') k = holders key m k := by
  have := Finmap.total_insert_add (f := fun h => if key h = k then 1 else 0) (v := h') hi
  unfold holders
  simp only [hk] at this
  omega

theorem holders_pos : 0 < holders key m k ↔ ∃ i h, m.lookup i = some h ∧ key h = k := by
  unfold holders
  rw [Finmap.total_pos]
  refine exists_congr fun i => exists_congr fun h => and_congr_right fun _ => ?_
  split_ifs with hk <;> simp [hk]

namespace Counted

variable {key}

theorem empty : Counted key count (∅ : Finmap fun _ : I => H) (∅ : Finmap fun _ : K => S) :=
  ⟨by simp, by simp, by simp [holders]⟩

/-- An entry is there exactly while some holder uses it. -/
theorem exists_iff (hc : Counted key count m shared) :
    (∃ r, shared.lookup k = some r) ↔ ∃ i h, m.lookup i = some h ∧ key h = k := by
  rw [← holders_pos key]
  constructor
  · rintro ⟨r, hr⟩
    exact hc.exact_count k r hr ▸ hc.held k r hr
  · intro hpos
    rcases hs : shared.lookup k with _ | r
    · have := hc.absent k hs
      omega
    · exact ⟨r, rfl⟩

theorem lookup_key (hc : Counted key count m shared) (hi : m.lookup i = some h) :
    ∃ r, shared.lookup (key h) = some r ∧ count r = holders key m (key h) := by
  obtain ⟨r, hr⟩ := hc.exists_iff.2 ⟨i, h, hi, rfl⟩
  exact ⟨r, hr, hc.exact_count _ r hr⟩

/-- A new holder, and its entry with one more on the count. -/
theorem acquire (hc : Counted key count m shared) (hi : m.lookup i = none)
    (hr : count r = holders key m (key h) + 1) :
    Counted key count (m.insert i h) (shared.insert (key h) r) := by
  have hcount : ∀ k r', (shared.insert (key h) r).lookup k = some r' →
      count r' = holders key (m.insert i h) k ∧ 0 < count r' := by
    intro k r' hk
    rw [holders_insert_new key hi]
    by_cases he : k = key h
    · subst he
      rw [Finmap.lookup_insert, Option.some.injEq] at hk
      subst hk
      simp only [if_true]
      omega
    · rw [Finmap.lookup_insert_of_ne _ he] at hk
      rw [if_neg (Ne.symm he), Nat.add_zero]
      exact ⟨hc.exact_count k r' hk, hc.held k r' hk⟩
  refine ⟨fun k r' hk => (hcount k r' hk).1, fun k r' hk => (hcount k r' hk).2, fun k hk => ?_⟩
  have he : k ≠ key h := by
    rintro rfl
    simp at hk
  rw [Finmap.lookup_insert_of_ne _ he] at hk
  rw [holders_insert_new key hi, if_neg (Ne.symm he), hc.absent k hk]

/-- The last holder goes, and its entry with it. -/
theorem release_last (hc : Counted key count m shared) (hi : m.lookup i = some h)
    (hlast : holders key m (key h) = 1) :
    Counted key count (m.erase i) (shared.erase (key h)) := by
  have hne : ∀ {k : K}, k ≠ key h → holders key (m.erase i) k = holders key m k := by
    intro k he
    have := holders_erase key hi k
    rwa [if_neg (Ne.symm he), Nat.add_zero] at this
  have hkey : ∀ {k : K} {r : S}, (shared.erase (key h)).lookup k = some r → k ≠ key h := by
    rintro k r hk rfl
    simp at hk
  refine ⟨fun k r hk => ?_, fun k r hk => ?_, fun k hk => ?_⟩
  · have he := hkey hk
    rw [Finmap.lookup_erase_ne he] at hk
    rw [hne he, hc.exact_count k r hk]
  · rw [Finmap.lookup_erase_ne (hkey hk)] at hk
    exact hc.held k r hk
  · by_cases he : k = key h
    · subst he
      have := holders_erase key hi (key h)
      simp only [if_true] at this
      omega
    · rw [Finmap.lookup_erase_ne he] at hk
      rw [hne he, hc.absent k hk]

/-- A holder goes while others stay, and its entry has one less on the count. -/
theorem release (hc : Counted key count m shared) (hi : m.lookup i = some h)
    (hr : count r + 1 = holders key m (key h)) (hpos : 0 < count r) :
    Counted key count (m.erase i) (shared.insert (key h) r) := by
  have hne : ∀ {k : K}, k ≠ key h → holders key (m.erase i) k = holders key m k := by
    intro k he
    have := holders_erase key hi k
    rwa [if_neg (Ne.symm he), Nat.add_zero] at this
  have hcount : ∀ k r', (shared.insert (key h) r).lookup k = some r' →
      count r' = holders key (m.erase i) k ∧ 0 < count r' := by
    intro k r' hk
    by_cases he : k = key h
    · subst he
      rw [Finmap.lookup_insert, Option.some.injEq] at hk
      subst hk
      have := holders_erase key hi (key h)
      simp only [if_true] at this
      omega
    · rw [Finmap.lookup_insert_of_ne _ he] at hk
      rw [hne he]
      exact ⟨hc.exact_count k r' hk, hc.held k r' hk⟩
  refine ⟨fun k r' hk => (hcount k r' hk).1, fun k r' hk => (hcount k r' hk).2, fun k hk => ?_⟩
  have he : k ≠ key h := by
    rintro rfl
    simp at hk
  rw [Finmap.lookup_insert_of_ne _ he] at hk
  rw [hne he, hc.absent k hk]

/-- A holder changes and keeps its key. -/
theorem update (hc : Counted key count m shared) (hi : m.lookup i = some h)
    (hk : key h' = key h) : Counted key count (m.insert i h') shared := by
  refine ⟨fun k r hs => ?_, hc.held, fun k hs => ?_⟩
  · rw [holders_update key hi hk, hc.exact_count k r hs]
  · rw [holders_update key hi hk, hc.absent k hs]

/-- An entry changes and keeps its count. -/
theorem touch (hc : Counted key count m shared) (hs : shared.lookup k = some r)
    (hr : count r' = count r) : Counted key count m (shared.insert k r') := by
  have hcount : ∀ k' r'', (shared.insert k r').lookup k' = some r'' →
      count r'' = holders key m k' ∧ 0 < count r'' := by
    intro k' r'' hk'
    by_cases he : k' = k
    · subst he
      rw [Finmap.lookup_insert, Option.some.injEq] at hk'
      subst hk'
      rw [hr]
      exact ⟨hc.exact_count _ r hs, hc.held _ r hs⟩
    · rw [Finmap.lookup_insert_of_ne _ he] at hk'
      exact ⟨hc.exact_count _ r'' hk', hc.held _ r'' hk'⟩
  refine ⟨fun k' r'' hk' => (hcount k' r'' hk').1, fun k' r'' hk' => (hcount k' r'' hk').2,
    fun k' hk' => ?_⟩
  have he : k' ≠ k := by
    rintro rfl
    simp at hk'
  rw [Finmap.lookup_insert_of_ne _ he] at hk'
  exact hc.absent k' hk'

end Counted

end RefCount
