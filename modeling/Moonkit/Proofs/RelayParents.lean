import Moonkit.Base.WalkBack
import Moonkit.Proofs.CoreClaims
import Moonkit.RelayParentSearch

/-!
# What the search of a relay parent finds

The loop of `offset_relay_parent_find_descendants` is a walk back along parent hashes from the best
block: it is stopped at an epoch change and fails at a header that is not in the store, whichever
comes first (`offset_refines`). So it finds the ancestor at the offset and the headers after it.
-/

namespace Moonkit

namespace BlockBuilder

open WalkBack

variable {RelayHash : Type} [DecidableEq RelayHash] {V : RelayHeaderReader RelayHash}
  {relayClient : RelayClient RelayHash} {cache cache' : RelayChainDataCache RelayHash}
  {store : RelayHash → Option (RelayHeader RelayHash)}

/-- The caches that calls of `getMutRelayChainData` lead to. -/
inductive Visited (relayClient : RelayClient RelayHash) (cache : RelayChainDataCache RelayHash) :
    RelayChainDataCache RelayHash → Prop
  | start : Visited relayClient cache cache
  | get {cache' : RelayChainDataCache RelayHash} (hvisited : Visited relayClient cache cache')
      (relayParent : RelayHash) :
      Visited relayClient cache (getMutRelayChainData relayClient relayParent cache').2

/-- `getMutRelayChainData` answers with the headers of the store, and with no others. -/
structure Serves (relayClient : RelayClient RelayHash) (cache : RelayChainDataCache RelayHash)
    (store : RelayHash → Option (RelayHeader RelayHash)) : Prop where
  stored : ∀ {cache' relayParent header}, Visited relayClient cache cache' →
    store relayParent = some header →
      ∃ data, (getMutRelayChainData relayClient relayParent cache').1 = .ok data ∧
        data.relayParentHeader = header
  missing : ∀ {cache' relayParent}, Visited relayClient cache cache' → store relayParent = none →
    (getMutRelayChainData relayClient relayParent cache').1 = .err ()

/-- What a search of the store answers. -/
def answerOf : Search (RelayHeader RelayHash) → Outcome Unit (Option (RelayParentData RelayHash))
  | .missing => .err ()
  | .stopped => .ok none
  | .found relayParent descendants => .ok (some ⟨relayParent, descendants⟩)

section Get

theorem Serves.get_stored {relayParent : RelayHash} {header : RelayHeader RelayHash}
    (hserves : Serves relayClient cache store) (hvisited : Visited relayClient cache cache')
    (h : store relayParent = some header) : ∃ data cache'',
      getMutRelayChainData relayClient relayParent cache' = (.ok data, cache'') ∧
        data.relayParentHeader = header ∧ Visited relayClient cache cache'' := by
  obtain ⟨data, hdata, hheader⟩ := hserves.stored hvisited h
  exact ⟨data, _, Prod.ext hdata rfl, hheader, hvisited.get relayParent⟩

theorem Serves.get_missing {relayParent : RelayHash} (hserves : Serves relayClient cache store)
    (hvisited : Visited relayClient cache cache') (h : store relayParent = none) : ∃ cache'',
      getMutRelayChainData relayClient relayParent cache' = (.err (), cache'') ∧
        Visited relayClient cache cache'' :=
  ⟨_, Prod.ext (hserves.missing hvisited h) rfl, hvisited.get relayParent⟩

/-- The cached headers are those of the store. -/
def Agrees (cache : RelayChainDataCache RelayHash)
    (store : RelayHash → Option (RelayHeader RelayHash)) : Prop :=
  ∀ e ∈ cache, store e.1 = some e.2.relayParentHeader

theorem header_of_available
    (hclient : ∀ relayParent, (updateForRelayParent relayClient relayParent).map
      RelayChainData.relayParentHeader = store relayParent)
    (hcache : Agrees cache store) (relayParent : RelayHash) :
    (available relayClient cache relayParent).map RelayChainData.relayParentHeader =
      store relayParent := by
  unfold available
  rcases hcached : cache.lookup relayParent with _ | data
  · exact hclient relayParent
  · exact (hcache _ (mem_of_lookup hcached)).symm

/-- A client that has the store serves it through any cache of its headers. -/
theorem serves_of_client
    (hclient : ∀ relayParent, (updateForRelayParent relayClient relayParent).map
      RelayChainData.relayParentHeader = store relayParent)
    (hcache : Agrees cache store) : Serves relayClient cache store := by
  have hagrees {cache' : RelayChainDataCache RelayHash}
      (hvisited : Visited relayClient cache cache') : Agrees cache' store := by
    induction hvisited with
    | start => exact hcache
    | @get cache' _ relayParent ih =>
      have hheader := header_of_available hclient ih relayParent
      rcases hdata : available relayClient cache' relayParent with _ | data
      · rw [getMutRelayChainData_none hdata]
        exact ih
      · rw [getMutRelayChainData_some hdata]
        intro e he
        rcases mem_touch he with rfl | he
        · rw [← hheader, hdata, Option.map_some]
        · exact ih e he
  constructor
  · intro cache' relayParent header hvisited hstore
    have hheader := header_of_available hclient (hagrees hvisited) relayParent
    rw [hstore] at hheader
    obtain ⟨data, hdata, hsame⟩ := Option.map_eq_some_iff.1 hheader
    rw [getMutRelayChainData_some hdata]
    exact ⟨data, rfl, hsame⟩
  · intro cache' relayParent hvisited hstore
    have hheader := header_of_available hclient (hagrees hvisited) relayParent
    rw [hstore] at hheader
    rw [getMutRelayChainData_none (Option.map_eq_none_iff.1 hheader)]

end Get

section Loop

/-- The loop is the walk up to the ancestor at the offset, or as far as it gets. -/
theorem requireAncestors_walks (hserves : Serves relayClient cache store) (offset : U32) :
    ∀ (n : ℕ) (header : RelayHeader RelayHash) (ancestors : List (RelayHeader RelayHash))
      {cache' : RelayChainDataCache RelayHash}, Visited relayClient cache cache' →
      ancestors.length + n = offset.val → ∃ result cache'',
        requireAncestors V relayClient offset header ancestors cache' = (result, cache'') ∧
        Visited relayClient cache cache'' ∧
        (result = .err () ∧ search store V.parentHash V.containsEpochChange n
            (V.parentHash header) ancestors = .missing ∨
          result = .ok none ∧ search store V.parentHash V.containsEpochChange n
            (V.parentHash header) ancestors = .stopped ∨
          ∃ header' ancestors', result = .ok (some (header', ancestors')) ∧
            search store V.parentHash V.containsEpochChange n (V.parentHash header) ancestors =
              search store V.parentHash V.containsEpochChange 0 (V.parentHash header') ancestors')
  | 0, header, ancestors, cache', hvisited, hlength => by
    have hdone : ¬ ancestors.length < offset.val := by omega
    rw [requireAncestors, dif_neg hdone]
    exact ⟨_, _, rfl, hvisited, .inr (.inr ⟨header, ancestors, rfl, rfl⟩)⟩
  | n + 1, header, ancestors, cache', hvisited, hlength => by
    have hmore : ancestors.length < offset.val := by omega
    rw [requireAncestors, dif_pos hmore]
    rcases hstore : store (V.parentHash header) with _ | next
    · obtain ⟨cache'', hget, hvisited'⟩ := hserves.get_missing hvisited hstore
      rw [Call.bind_err hget]
      exact ⟨_, _, rfl, hvisited', .inl ⟨rfl, by simp only [search, hstore]⟩⟩
    · obtain ⟨data, cache'', hget, rfl, hvisited'⟩ := hserves.get_stored hvisited hstore
      rw [Call.bind_ok hget]
      rcases hepoch : V.containsEpochChange data.relayParentHeader with _ | _
      · obtain ⟨result, cache₃, hloop, hvisited₃, hresult⟩ := requireAncestors_walks hserves offset
          n data.relayParentHeader (data.relayParentHeader :: ancestors) hvisited'
          (by rw [List.length_cons]; omega)
        rw [search_succ hstore hepoch]
        simp only [Bool.false_eq_true, if_false]
        exact ⟨result, cache₃, hloop, hvisited₃, hresult⟩
      · simp only [if_true]
        exact ⟨_, _, rfl, hvisited',
          .inr (.inl ⟨rfl, by simp only [search, hstore, hepoch, if_true]⟩)⟩

/-- The search is a walk back from the best block. -/
theorem offset_refines (hserves : Serves relayClient cache store) (best : RelayHash)
    (offset : U32) :
    (offsetRelayParentFindDescendants V relayClient best offset cache).1 =
      answerOf (search store V.parentHash V.containsEpochChange offset.val best []) := by
  unfold offsetRelayParentFindDescendants
  rcases hstore : store best with _ | header
  · obtain ⟨cache', hget, -⟩ := hserves.get_missing .start hstore
    rw [Call.bind_err hget]
    cases offset.val <;> simp only [search, hstore] <;> rfl
  · obtain ⟨data, cache', hget, rfl, hvisited⟩ := hserves.get_stored .start hstore
    rw [Call.bind_ok hget]
    rcases hoffset : offset.val with _ | n
    · simp only [search, hstore]
      rfl
    · rw [if_neg (Nat.succ_ne_zero n)]
      rcases hepoch : V.containsEpochChange data.relayParentHeader with _ | _
      · obtain ⟨result, cache'', hloop, hvisited', hresult⟩ := requireAncestors_walks (V := V)
          hserves offset n data.relayParentHeader [data.relayParentHeader] hvisited
          (by rw [List.length_singleton]; omega)
        simp only [Bool.false_eq_true, if_false]
        rw [search_succ hstore hepoch]
        rcases hresult with ⟨rfl, hsearch⟩ | ⟨rfl, hsearch⟩ | ⟨header', ancestors', rfl, hsearch⟩
        · rw [hsearch, Call.bind_err hloop]
          rfl
        · rw [hsearch, Call.bind_ok hloop]
          rfl
        · rw [hsearch, Call.bind_ok hloop]
          rcases hparent : store (V.parentHash header') with _ | parent
          · obtain ⟨_, hget', -⟩ := hserves.get_missing hvisited' hparent
            simp only [search, hparent, Call.bind_err hget']
            rfl
          · obtain ⟨data', _, hget', rfl, -⟩ := hserves.get_stored hvisited' hparent
            simp only [search, hparent, Call.bind_ok hget']
            rfl
      · simp only [search, hstore, hepoch, if_true]
        rfl

end Loop

section Offset

/-- The answer of a search from `best` at the offset `n` is right. Walking back, `walk` is the
ancestor after as many steps. -/
structure SearchesBack (V : RelayHeaderReader RelayHash)
    (store : RelayHash → Option (RelayHeader RelayHash)) (best : RelayHash) (n : ℕ)
    (answer : Outcome Unit (Option (RelayParentData RelayHash))) : Prop where
  zero : n = 0 → answer = (store best).elim (.err ()) fun header => .ok (some ⟨header, []⟩)
  found_iff : 0 < n → ((∃ data, answer = .ok (some data)) ↔
    (∀ k ≤ n, (walk store V.parentHash k best).isSome) ∧
      ∀ k < n, ∀ header, walk store V.parentHash k best = some header →
        V.containsEpochChange header = false)
  found : ∀ data, 0 < n → answer = .ok (some data) →
    walk store V.parentHash n best = some data.relayParent ∧
    data.descendants.map some =
      (List.range n).reverse.map (fun k => walk store V.parentHash k best) ∧
    Linked V.parentHash RelayHeader.hash (data.relayParent :: data.descendants) ∧
    data.descendants.getLast? = store best ∧
    data.descendants.length = n ∧
    data.intoInherentDescendantList = data.relayParent :: data.descendants
  stopped_iff : 0 < n → (answer = .ok none ↔
    ∃ k < n, ∃ header, walk store V.parentHash k best = some header ∧
      V.containsEpochChange header)
  otherwise : (∀ data, answer ≠ .ok (some data)) → answer ≠ .ok none → answer = .err ()

omit [DecidableEq RelayHash] in
theorem answerOf_eq_some {s : Search (RelayHeader RelayHash)} {data : RelayParentData RelayHash} :
    answerOf s = .ok (some data) ↔ s = .found data.relayParent data.descendants := by
  cases s with
  | missing => simp [answerOf]
  | stopped => simp [answerOf]
  | found relayParent descendants =>
    cases data
    simp [answerOf]

omit [DecidableEq RelayHash] in
theorem answerOf_eq_none {s : Search (RelayHeader RelayHash)} :
    answerOf s = .ok none ↔ s = .stopped := by
  cases s <;> simp [answerOf]

omit [DecidableEq RelayHash] in
/-- The descendants found are not empty, so the inherent list has them after their parent. -/
theorem intoInherentDescendantList_eq {data : RelayParentData RelayHash}
    (h : 0 < data.descendants.length) :
    data.intoInherentDescendantList = data.relayParent :: data.descendants := by
  have hne : data.descendants.isEmpty = false := by
    cases hd : data.descendants <;> simp_all
  rw [RelayParentData.intoInherentDescendantList, hne]
  rfl

omit [DecidableEq RelayHash] in
theorem found_descendants {best : RelayHash} {n : ℕ} (hn : 0 < n)
    {relayParent : RelayHeader RelayHash} {descendants : List (RelayHeader RelayHash)}
    (h : search store V.parentHash V.containsEpochChange n best [] =
      .found relayParent descendants) :
    descendants.length = n ∧ descendants.getLast? = store best := by
  obtain ⟨-, hmap⟩ := search_found h
  rw [List.map_nil, List.append_nil] at hmap
  constructor
  · simpa using congrArg List.length hmap
  · obtain ⟨m, rfl⟩ := Nat.exists_eq_succ_of_ne_zero hn.ne'
    have hlast := congrArg List.getLast? hmap
    rw [List.range_succ_eq_map, List.reverse_cons, List.map_append, List.map_singleton,
      List.getLast?_concat, List.getLast?_map] at hlast
    obtain ⟨header, hheader, hbest⟩ := Option.map_eq_some_iff.1 hlast
    exact hheader.trans hbest

/-- The search answers with the ancestor at the offset and the headers after it. -/
theorem offset_searches_back
    (hkey : ∀ hash header, store hash = some header → header.hash = hash)
    (hserves : Serves relayClient cache store) (best : RelayHash) (offset : U32) :
    SearchesBack V store best offset.val
      (offsetRelayParentFindDescendants V relayClient best offset cache).1 := by
  rw [offset_refines hserves best offset]
  constructor
  · intro hn
    rw [hn]
    cases hstore : store best <;> simp only [search, hstore] <;> rfl
  · intro hn
    have hfound : (∃ x l, search store V.parentHash V.containsEpochChange offset.val best [] =
      .found x l) ↔ _ := search_found_iff offset.val best []
    constructor
    · rintro ⟨data, hdata⟩
      obtain ⟨hlast, hepoch⟩ := hfound.1 ⟨_, _, answerOf_eq_some.1 hdata⟩
      exact ⟨fun k hk => walk_isSome_of_le hk hlast, hepoch⟩
    · rintro ⟨hall, hepoch⟩
      obtain ⟨relayParent, descendants, h⟩ := hfound.2 ⟨hall _ le_rfl, hepoch⟩
      exact ⟨⟨relayParent, descendants⟩, answerOf_eq_some.2 h⟩
  · intro data hn hdata
    have hfound := answerOf_eq_some.1 hdata
    obtain ⟨hparent, hmap⟩ := search_found hfound
    obtain ⟨hlength, hlast⟩ := found_descendants hn hfound
    rw [List.map_nil, List.append_nil] at hmap
    exact ⟨hparent, hmap, search_linked hkey hfound .nil (by simp), hlast, hlength,
      intoInherentDescendantList_eq (by omega)⟩
  · intro hn
    rw [answerOf_eq_none, search_stopped_iff]
  · intro hsome hnone
    cases hsearch : search store V.parentHash V.containsEpochChange offset.val best [] with
    | missing => rfl
    | stopped => exact absurd (by rw [hsearch]; rfl) hnone
    | found relayParent descendants => exact absurd (by rw [hsearch]; rfl) (hsome _)

namespace Mock

/-- A chain whose hashes count up from 1 to 100. -/
def headers (hash : ℕ) : Option (RelayHeader ℕ) :=
  if 0 < hash ∧ hash ≤ 100 then some ⟨hash, Vector.replicate 32 0⟩ else none

def client : RelayClient ℕ := ⟨fun _ => none, headers, fun _ => some 0⟩

def reader : RelayHeaderReader ℕ := ⟨fun header => header.hash - 1, fun _ => false⟩

theorem hash_of_headers (hash : ℕ) (header : RelayHeader ℕ) (h : headers hash = some header) :
    header.hash = hash := by
  unfold headers at h
  split_ifs at h
  rw [← Option.some.inj h]

theorem serves_headers : Serves client [] headers := by
  refine serves_of_client (fun hash => ?_) (fun e he => absurd he List.not_mem_nil)
  unfold updateForRelayParent
  rcases h : client.header hash with _ | header
  · exact h.symm
  · exact h.symm

end Mock

theorem offset_two_searches_back :
    SearchesBack Mock.reader Mock.headers 100 2
      (offsetRelayParentFindDescendants Mock.reader Mock.client 100 (.lit 2) []).1 ∧
    (offsetRelayParentFindDescendants Mock.reader Mock.client 100 (.lit 2) []).1
      = .ok (some ⟨⟨98, Vector.replicate 32 0⟩,
          [⟨99, Vector.replicate 32 0⟩, ⟨100, Vector.replicate 32 0⟩]⟩) :=
  ⟨offset_searches_back Mock.hash_of_headers Mock.serves_headers 100 (.lit 2), by decide +kernel⟩

end Offset

end BlockBuilder

end Moonkit
