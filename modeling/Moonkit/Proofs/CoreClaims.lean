import Moonkit.BlockBuilder

/-!
# Claiming the cores of a relay parent

A collator counts on from a selector: the one the parent block carries, or the last one it claimed
itself. As long as that is the selector of the parent block, the blocks on a relay parent take its
cores one after the other. The builder does not put the selector into the block, so a collator
that builds on the block of another one may count on from a selector that is long taken.
-/

namespace Moonkit

namespace BlockBuilder

variable {RelayHash Hash Collator : Type}

section Chains

variable [DecidableEq RelayHash] {D : CumulusDigest RelayHash} {R : RelayHeader RelayHash}
  {claims : RelayHash → List CoreIndex} {chain : List (Block RelayHash Hash)}
  {b : Block RelayHash Hash}

/-- The newest blocks of a chain as far as they are on the relay parent. -/
def onRelayParent (R : RelayHeader RelayHash) (chain : List (Block RelayHash Hash)) :
    List (Block RelayHash Hash) :=
  chain.takeWhile (·.relayParent = R)

/-- The header says that it is built on the relay parent, by its hash or by its storage root. -/
def Carries (D : CumulusDigest RelayHash) (header : Header Hash) (R : RelayHeader RelayHash) :
    Prop :=
  header.number ≠ 0 ∧ (D.extractRelayParent header.digest = some R.hash ∨
    D.extractRelayParent header.digest = none ∧
      ∃ n, D.extractRelayParentStorageRoot header.digest = some (R.stateRoot, n))

theorem isNewRelayParent_of_carries {header : Header Hash} (h : Carries D header R) :
    isNewRelayParent D R header = .ok false := by
  obtain ⟨hnumber, hhash | ⟨hnone, n, hroot⟩⟩ := h
  · simp [isNewRelayParent, hnumber, hhash]
  · simp [isNewRelayParent, hnumber, hnone, hroot, Outcome.okOr, bind]

/-- Each block has the core of its selector, and the selector is the number of blocks below it on
its relay parent. -/
def Counted (D : CumulusDigest RelayHash) (claims : RelayHash → List CoreIndex) :
    List (Block RelayHash Hash) → Prop
  | [] => True
  | b :: chain => Carries D b.header b.relayParent ∧
    (claims b.relayParent.hash)[b.core.selector.val]? = some b.core.coreIndex ∧
    b.core.selector.val = (onRelayParent b.relayParent chain).length ∧ Counted D claims chain

theorem onRelayParent_cons_self : onRelayParent b.relayParent (b :: chain) =
    b :: onRelayParent b.relayParent chain := by
  simp [onRelayParent]

theorem onRelayParent_cons_of_ne (h : b.relayParent ≠ R) : onRelayParent R (b :: chain) = [] := by
  simp [onRelayParent, h]

/-- The blocks on a relay parent have its first cores. -/
theorem Counted.coreIndex (h : Counted D claims chain) : ∀ b ∈ onRelayParent R chain,
    b.core.selector.val < (onRelayParent R chain).length ∧
      (claims R.hash)[b.core.selector.val]? = some b.core.coreIndex := by
  induction chain with
  | nil => simp [onRelayParent]
  | cons b' chain ih =>
    obtain ⟨-, hcore, hcount, hchain⟩ := h
    by_cases hR : b'.relayParent = R
    · subst hR
      rw [onRelayParent_cons_self, List.length_cons]
      intro b hb
      rcases List.mem_cons.1 hb with rfl | hb
      · exact ⟨by omega, hcore⟩
      · obtain ⟨hlt, hcore⟩ := ih hchain b hb
        exact ⟨by omega, hcore⟩
    · rw [onRelayParent_cons_of_ne hR]
      simp

theorem Counted.nodup (h : Counted D claims chain) (hnodup : (claims R.hash).Nodup) :
    ((onRelayParent R chain).map fun b => b.core.coreIndex).Nodup := by
  induction chain with
  | nil => simp [onRelayParent]
  | cons b chain ih =>
    obtain ⟨-, hcore, hcount, hchain⟩ := h
    by_cases hR : b.relayParent = R
    · subst hR
      rw [onRelayParent_cons_self, List.map_cons, List.nodup_cons, List.mem_map]
      refine ⟨?_, ih hchain⟩
      rintro ⟨b', hb', heq⟩
      obtain ⟨hlt, hcore'⟩ := hchain.coreIndex b' hb'
      obtain ⟨hlength, -⟩ := List.getElem?_eq_some_iff.1 hcore
      have hsame := (List.getElem?_inj hlength hnodup).1 (hcore.trans (heq ▸ hcore'.symm))
      omega
    · rw [onRelayParent_cons_of_ne hR]
      simp

theorem length_le_of_all_claimed (hnodup : (claims R.hash).Nodup)
    (hall : ∀ core ∈ claims R.hash, core ∈ (onRelayParent R chain).map fun b => b.core.coreIndex) :
    (claims R.hash).length ≤ (onRelayParent R chain).length := by
  have hle := (List.subperm_of_subset hnodup hall).length_le
  rwa [List.length_map] at hle

theorem Counted.of_append : ∀ {newer : List (Block RelayHash Hash)},
    Counted D claims (newer ++ chain) → Counted D claims chain
  | [], h => h
  | _ :: _, h => Counted.of_append h.2.2.2

theorem onRelayParent_append {segment : List (Block RelayHash Hash)}
    (h : ∀ b ∈ segment, b.relayParent = R) :
    onRelayParent R (segment ++ chain) = segment ++ onRelayParent R chain := by
  exact List.takeWhile_append_of_pos (by simpa using h)

end Chains

section Cache

variable [DecidableEq RelayHash] {D : CumulusDigest RelayHash} {P : Para}
  {claims : RelayHash → List CoreIndex} {R : RelayHeader RelayHash} {parent : Header Hash}
  {relayClient : RelayClient RelayHash} {cache : RelayChainDataCache RelayHash}
  {data : RelayChainData RelayHash}

/-- The claims of the data are those of the relay parent, or none after a failed query. -/
def Genuine (P : Para) (claims : RelayHash → List CoreIndex) (relayParent : RelayHash)
    (data : RelayChainData RelayHash) : Prop :=
  data.claimQueue P.relayParentOffset.val P.paraId = claims relayParent ∨
    data.claimQueue P.relayParentOffset.val P.paraId = []

def GenuineCache (P : Para) (claims : RelayHash → List CoreIndex)
    (cache : RelayChainDataCache RelayHash) : Prop :=
  ∀ e ∈ cache, Genuine P claims e.1 e.2

/-- Where the query succeeds, the relay client answers the claim queue of the relay parent. -/
def GenuineClient (P : Para) (claims : RelayHash → List CoreIndex)
    (relayClient : RelayClient RelayHash) : Prop :=
  ∀ relayParent queue, relayClient.claimQueue relayParent = some queue →
    queue P.relayParentOffset.val P.paraId = claims relayParent

omit [DecidableEq RelayHash] in
theorem genuine_cores {data : RelayChainData RelayHash} {relayParent : RelayHash}
    (h : Genuine P claims relayParent data) {selector : ℕ} {coreIndex : CoreIndex}
    (hcore : (data.claimQueue P.relayParentOffset.val P.paraId)[selector]? = some coreIndex) :
    data.claimQueue P.relayParentOffset.val P.paraId = claims relayParent := by
  rcases h with h | h
  · exact h
  · rw [h] at hcore
    simp at hcore

/-- The data that is cached, or else fetched. -/
def available (relayClient : RelayClient RelayHash) (cache : RelayChainDataCache RelayHash)
    (relayParent : RelayHash) : Option (RelayChainData RelayHash) :=
  (cache.lookup relayParent).or (updateForRelayParent relayClient relayParent)

omit [DecidableEq RelayHash] in
/-- Fetched data has the claim queue of the client, empty after a failed query, and no claim. -/
theorem updateForRelayParent_eq_some {relayParent : RelayHash}
    (h : updateForRelayParent relayClient relayParent = some data) :
    data.claimQueue = (relayClient.claimQueue relayParent).getD (fun _ _ => []) ∧
      data.lastClaimedCoreSelector = none := by
  simp only [updateForRelayParent, Option.bind_eq_bind, Option.bind_eq_some_iff, Option.pure_def,
    Option.some.injEq] at h
  obtain ⟨header, -, maxPovSize, -, rfl⟩ := h
  exact ⟨rfl, rfl⟩

theorem getMutRelayChainData_some {relayParent : RelayHash}
    (h : available relayClient cache relayParent = some data) :
    getMutRelayChainData relayClient relayParent cache =
      (.ok data, touch relayParent data cache) := by
  unfold available at h
  unfold getMutRelayChainData
  rcases hcached : cache.lookup relayParent with _ | cached <;> rw [hcached] at h
  · rw [Option.none_or] at h
    simp only [h]
  · obtain rfl := Option.some.inj h
    rfl

theorem getMutRelayChainData_none {relayParent : RelayHash}
    (h : available relayClient cache relayParent = none) :
    getMutRelayChainData relayClient relayParent cache = (.err (), cache) := by
  obtain ⟨hcached, hfetched⟩ := Option.or_eq_none_iff.1 h
  unfold getMutRelayChainData
  simp only [hcached, hfetched]

theorem lookup_touch (relayParent : RelayHash) :
    (touch relayParent data cache).lookup relayParent = some data := by
  simp [touch]

theorem available_touch (relayParent : RelayHash) :
    available relayClient (touch relayParent data cache) relayParent = some data := by
  rw [available, lookup_touch, Option.some_or]

/-- What is cached after a use is the data used, or was cached. -/
theorem mem_touch {relayParent : RelayHash} {e : RelayHash × RelayChainData RelayHash}
    (he : e ∈ touch relayParent data cache) : e = (relayParent, data) ∨ e ∈ cache :=
  (List.mem_cons.1 (List.mem_of_mem_take he)).imp_right List.mem_of_mem_filter

theorem mem_of_lookup {relayParent : RelayHash} (h : cache.lookup relayParent = some data) :
    (relayParent, data) ∈ cache := by
  obtain ⟨before, after, rfl, -⟩ := List.lookup_eq_some_iff.1 h
  simp

theorem genuine_touch {relayParent : RelayHash} (hcache : GenuineCache P claims cache)
    (hdata : Genuine P claims relayParent data) :
    GenuineCache P claims (touch relayParent data cache) := by
  intro e he
  rcases mem_touch he with rfl | he
  · exact hdata
  · exact hcache e he

theorem genuine_of_available {relayParent : RelayHash} (hcache : GenuineCache P claims cache)
    (hclient : GenuineClient P claims relayClient)
    (h : available relayClient cache relayParent = some data) :
    Genuine P claims relayParent data := by
  rcases Option.or_eq_some_iff.1 h with hcached | ⟨-, hfetched⟩
  · exact hcache (relayParent, data) (mem_of_lookup hcached)
  · unfold Genuine
    rw [(updateForRelayParent_eq_some hfetched).1]
    rcases hqueue : relayClient.claimQueue relayParent with _ | queue
    · exact .inr rfl
    · exact .inl (hclient relayParent queue hqueue)

/-- The selector that a collator counts on from. -/
def countsFrom (D : CumulusDigest RelayHash) (cache : RelayChainDataCache RelayHash)
    (R : RelayHeader RelayHash) (parent : Header Hash) : ℕ :=
  match D.findCoreInfo parent.digest with
  | some coreInfo => coreInfo.selector.val
  | none =>
    ((cache.lookup R.hash).bind RelayChainData.lastClaimedCoreSelector).elim 0 Uint.val

/-- Fresh data has no claim yet, so what is counted on from is in the cache. -/
theorem lastClaimed_of_available {relayParent : RelayHash}
    (h : available relayClient cache relayParent = some data) :
    data.lastClaimedCoreSelector =
      (cache.lookup relayParent).bind RelayChainData.lastClaimedCoreSelector := by
  rcases Option.or_eq_some_iff.1 h with hcached | ⟨hnone, hfetched⟩
  · rw [hcached, Option.bind_some]
  · rw [hnone, Option.bind_none, (updateForRelayParent_eq_some hfetched).2]

theorem determineCore_ok {isNew : Bool} (hdata : available relayClient cache R.hash = some data)
    (hnew : isNewRelayParent D R parent = .ok isNew) : ∃ cache',
      determineCore D P relayClient R parent cache =
        (.ok (coreAt P (data.claimQueue P.relayParentOffset.val P.paraId)
          (if isNew then 0 else countsFrom D cache R parent + 1)), cache') ∧
      (cache' = touch R.hash data cache ∨
        cache' = touch R.hash data (touch R.hash data cache)) := by
  have hlift : (Call.lift (isNewRelayParent D R parent) : CacheCall RelayHash Bool)
      (touch R.hash data cache) = (.ok isNew, touch R.hash data cache) := by
    simp only [Call.lift, hnew]
  unfold determineCore
  rw [Call.bind_ok (getMutRelayChainData_some hdata), Call.bind_ok hlift]
  unfold countsFrom
  cases isNew with
  | true => exact ⟨_, rfl, .inl rfl⟩
  | false =>
    rcases hinfo : D.findCoreInfo parent.digest with _ | coreInfo
    · simp only [Bool.false_eq_true, if_false,
        Call.bind_ok (getMutRelayChainData_some (available_touch R.hash)),
        ← lastClaimed_of_available hdata]
      exact ⟨_, rfl, .inr rfl⟩
    · exact ⟨_, rfl, .inl rfl⟩

theorem getMutRelayChainData_genuine (hclient : GenuineClient P claims relayClient)
    (relayParent : RelayHash) : Call.Ensures (GenuineCache P claims) (Genuine P claims relayParent)
      (getMutRelayChainData relayClient relayParent) := by
  intro cache hcache
  rcases hdata : available relayClient cache relayParent with _ | data
  · rw [getMutRelayChainData_none hdata]
    exact ⟨hcache, by simp⟩
  · have hgenuine := genuine_of_available hcache hclient hdata
    rw [getMutRelayChainData_some hdata]
    refine ⟨genuine_touch hcache hgenuine, fun a ha => ?_⟩
    obtain rfl := Outcome.ok.inj ha
    exact hgenuine

theorem determineCore_genuine (hclient : GenuineClient P claims relayClient) :
    Call.Ensures (GenuineCache P claims) (fun _ => True)
      (determineCore D P relayClient R parent) := by
  refine .bind (getMutRelayChainData_genuine hclient R.hash) fun data _ =>
    .bind (.lift _) fun isNew _ => ?_
  split_ifs
  · exact .pure trivial
  · split
    · exact .pure trivial
    · exact .bind (getMutRelayChainData_genuine hclient R.hash) fun _ _ => .pure trivial

theorem buildOn_genuine (hclient : GenuineClient P claims relayClient) (builds : Bool) :
    Call.Ensures (GenuineCache P claims) (fun _ => True)
      (buildOn D P relayClient R parent builds) := by
  refine .bind (determineCore_genuine hclient) fun core _ => ?_
  split
  · exact .pure trivial
  · refine .bind (getMutRelayChainData_genuine hclient R.hash) fun data hdata => ?_
    split_ifs
    · exact .bind (.modify fun cache hcache => genuine_touch hcache hdata) fun _ _ => .pure trivial
    · exact .pure trivial

theorem available_of_determineCore {answer : Option Core} {cache' : RelayChainDataCache RelayHash}
    (h : determineCore D P relayClient R parent cache = (.ok answer, cache')) :
    ∃ data, available relayClient cache' R.hash = some data := by
  rcases hdata : available relayClient cache R.hash with _ | data
  · unfold determineCore at h
    rw [Call.bind_err (getMutRelayChainData_none hdata)] at h
    simp at h
  · have hrest := h
    unfold determineCore at hrest
    rw [Call.bind_ok (getMutRelayChainData_some hdata)] at hrest
    obtain ⟨isNew, _, hlift, -⟩ := Call.bind_eq_ok.1 hrest
    obtain ⟨cache₁, hcore, hcache⟩ := determineCore_ok (P := P) hdata (congrArg Prod.fst hlift)
    rw [h, Prod.mk.injEq] at hcore
    obtain ⟨-, rfl⟩ := hcore
    rcases hcache with rfl | rfl
    · exact ⟨data, available_touch R.hash⟩
    · exact ⟨data, available_touch R.hash⟩

theorem buildOn_fst (builds : Bool) (cache : RelayChainDataCache RelayHash) :
    (buildOn D P relayClient R parent builds cache).1 =
      (determineCore D P relayClient R parent cache).1 := by
  rcases hcore : determineCore D P relayClient R parent cache with ⟨(_ | core) | e | m, cache'⟩
  · unfold buildOn
    rw [Call.bind_ok hcore]
    rfl
  · obtain ⟨data, hdata⟩ := available_of_determineCore hcore
    unfold buildOn
    rw [Call.bind_ok hcore]
    simp only [Call.bind_ok (getMutRelayChainData_some hdata)]
    cases builds <;> rfl
  · unfold buildOn
    rw [Call.bind_err hcore]
  · unfold buildOn
    rw [Call.bind_panic hcore]

end Cache

section Runs

variable [DecidableEq RelayHash] {D : CumulusDigest RelayHash} {P : Para}
  {root : Header Hash} {claims : RelayHash → List CoreIndex}
  {s : State RelayHash Hash Collator} {op : Op RelayHash Hash Collator}

/-- What is assumed of the surroundings: the relay client answers the claim queue of a relay parent,
collators build on chains that exist, and a block carries its relay parent. -/
def Surroundings (D : CumulusDigest RelayHash) (P : Para) (claims : RelayHash → List CoreIndex)
    (s : State RelayHash Hash Collator) : Op RelayHash Hash Collator → Prop
  | .visit _ relayClient _ => GenuineClient P claims relayClient
  | .attempt _ relayClient chain relayParent header => GenuineClient P claims relayClient ∧
    chain ∈ s.chains ∧ ∀ built ∈ header, Carries D built relayParent

/-- A collator that finds the relay parent used counts on from the selector of the parent block. -/
def CountsOn (D : CumulusDigest RelayHash) (root : Header Hash)
    (s : State RelayHash Hash Collator) : Op RelayHash Hash Collator → Prop
  | .visit _ _ _ => True
  | .attempt collator _ chain relayParent _ =>
    isNewRelayParent D relayParent (tip root chain) = .ok true ∨ ∃ b below, chain = b :: below ∧
      b.relayParent = relayParent ∧
      countsFrom D (s.caches collator) relayParent b.header = b.core.selector.val

/-- All chains are counted and all caches are genuine. -/
structure InOrder (D : CumulusDigest RelayHash) (P : Para) (claims : RelayHash → List CoreIndex)
    (s : State RelayHash Hash Collator) : Prop where
  chains : ∀ chain ∈ s.chains, Counted D claims chain
  caches : ∀ collator, GenuineCache P claims (s.caches collator)

/-- The selector that a collator in step tries is the number of blocks on the relay parent. -/
theorem selector_eq {collator : Collator} {relayClient : RelayClient RelayHash}
    {chain : List (Block RelayHash Hash)} {R : RelayHeader RelayHash}
    {header : Option (Header Hash)} (hchain : Counted D claims chain)
    (hcounts : CountsOn D root s (.attempt collator relayClient chain R header)) :
    ∃ isNew, isNewRelayParent D R (tip root chain) = .ok isNew ∧
      (if isNew then 0 else countsFrom D (s.caches collator) R (tip root chain) + 1) =
        (onRelayParent R chain).length := by
  rcases hcounts with hnew | ⟨b, below, rfl, rfl, hcount⟩
  · refine ⟨true, hnew, ?_⟩
    cases chain with
    | nil => rfl
    | cons b below =>
      have hne : b.relayParent ≠ R := by
        rintro rfl
        have hold := isNewRelayParent_of_carries hchain.1
        rw [show isNewRelayParent D b.relayParent b.header = .ok true from hnew] at hold
        simp at hold
      rw [onRelayParent_cons_of_ne hne]
      rfl
  · refine ⟨false, isNewRelayParent_of_carries hchain.1, ?_⟩
    rw [onRelayParent_cons_self, List.length_cons, ← hchain.2.2.1, ← hcount]
    rfl

theorem coreAt_eq_some {cores : List CoreIndex} {selector : ℕ} {core : Core}
    (h : coreAt P cores selector = some core) (hlength : cores.length ≤ 256) :
    core.selector.val = selector ∧ cores[selector]? = some core.coreIndex := by
  obtain ⟨coreIndex, hcore, rfl⟩ := Option.map_eq_some_iff.1 h
  obtain ⟨hlt, -⟩ := List.getElem?_eq_some_iff.1 hcore
  exact ⟨Nat.mod_eq_of_lt (by omega), hcore⟩

variable {collator : Collator} {relayClient : RelayClient RelayHash}
  {chain : List (Block RelayHash Hash)} {R : RelayHeader RelayHash} {header : Option (Header Hash)}

/-- What a collator in step is answered: the core after those that are taken. -/
theorem buildOn_inOrder (hs : InOrder D P claims s)
    (hsurroundings : Surroundings D P claims s (.attempt collator relayClient chain R header))
    (hcounts : CountsOn D root s (.attempt collator relayClient chain R header)) (builds : Bool)
    {data : RelayChainData RelayHash}
    (hdata : available relayClient (s.caches collator) R.hash = some data) :
    Genuine P claims R.hash data ∧
    (buildOn D P relayClient R (tip root chain) builds (s.caches collator)).1 =
      .ok (coreAt P (data.claimQueue P.relayParentOffset.val P.paraId)
        (onRelayParent R chain).length) := by
  obtain ⟨hclient, hmem, -⟩ := hsurroundings
  obtain ⟨isNew, hnew, hselector⟩ := selector_eq (hs.chains chain hmem) hcounts
  obtain ⟨cache', hcore, -⟩ := determineCore_ok (P := P) hdata hnew
  refine ⟨genuine_of_available (hs.caches collator) hclient hdata, ?_⟩
  rw [buildOn_fst, hcore, hselector]

theorem buildOn_unavailable {builds : Bool}
    (hdata : available relayClient (s.caches collator) R.hash = none) :
    (buildOn D P relayClient R (tip root chain) builds (s.caches collator)).1 = .err () := by
  rw [buildOn_fst]
  unfold determineCore
  rw [Call.bind_err (getMutRelayChainData_none hdata)]

variable [DecidableEq Collator]

theorem setCache_genuine (hs : InOrder D P claims s) {cache : RelayChainDataCache RelayHash}
    (hcache : GenuineCache P claims cache) (collator collator' : Collator) :
    GenuineCache P claims ((s.setCache collator cache).caches collator') := by
  show GenuineCache P claims (Function.update s.caches collator cache collator')
  by_cases heq : collator' = collator
  · subst heq
    rwa [Function.update_self]
  · rw [Function.update_of_ne heq]
    exact hs.caches collator'

/-- A block that takes the core after those that are taken is counted. -/
theorem counted_cons (hlength : (claims R.hash).length ≤ 256) (hchain : Counted D claims chain)
    {built : Header Hash} (hcarries : Carries D built R) {data : RelayChainData RelayHash}
    (hdata : Genuine P claims R.hash data) {core : Core}
    (hcore : coreAt P (data.claimQueue P.relayParentOffset.val P.paraId)
      (onRelayParent R chain).length = some core) :
    Counted D claims (⟨built, R, core⟩ :: chain) := by
  obtain ⟨coreIndex, hindex, -⟩ := Option.map_eq_some_iff.1 hcore
  rw [genuine_cores hdata hindex] at hcore
  obtain ⟨hselector, hindex⟩ := coreAt_eq_some hcore hlength
  exact ⟨hcarries, by rw [hselector]; exact hindex, hselector, hchain⟩

theorem inOrder_step (hlength : ∀ relayParent, (claims relayParent).length ≤ 256)
    (hs : InOrder D P claims s) (hsurroundings : Surroundings D P claims s op)
    (hcounts : CountsOn D root s op) : InOrder D P claims (op.run D P root s).2 := by
  cases op with
  | visit collator relayClient relayParent =>
    refine ⟨hs.chains, setCache_genuine hs ?_ collator⟩
    exact ((getMutRelayChainData_genuine hsurroundings relayParent) _ (hs.caches collator)).1
  | attempt collator relayClient chain R header =>
    have hbuild : GenuineCache P claims
        (buildOn D P relayClient R (tip root chain) header.isSome (s.caches collator)).2 :=
      (buildOn_genuine hsurroundings.1 header.isSome _ (hs.caches collator)).1
    have hcaches := setCache_genuine hs hbuild collator
    simp only [Op.run]
    split
    · rename_i core built hanswer
      refine ⟨?_, hcaches⟩
      intro chain' hmem
      rcases List.mem_cons.1 hmem with rfl | hmem
      · rcases hdata : available relayClient (s.caches collator) R.hash with _ | data
        · rw [buildOn_unavailable hdata] at hanswer
          simp at hanswer
        · obtain ⟨hgenuine, hbuild⟩ := buildOn_inOrder hs hsurroundings hcounts _ hdata
          rw [hbuild, Outcome.ok.injEq] at hanswer
          exact counted_cons (hlength R.hash) (hs.chains chain hsurroundings.2.1)
            (hsurroundings.2.2 built rfl) hgenuine hanswer
      · exact hs.chains chain' hmem
    · exact ⟨hs.chains, hcaches⟩

variable {h : List (RunEvent RelayHash Hash Collator)}

theorem inOrder_of_run (hlength : ∀ relayParent, (claims relayParent).length ≤ 256)
    (hr : (machine D P root).Run
      (fun _ s op => Surroundings D P claims s op ∧ CountsOn D root s op) h s) :
    InOrder D P claims s := by
  refine hr.invariant (fun _ s => InOrder D P claims s) ?_
    fun _ _ _ _ hs ha => inOrder_step hlength hs ha.1 ha.2
  rintro _ rfl
  refine ⟨fun chain hchain => ?_, fun _ e he => absurd he List.not_mem_nil⟩
  obtain rfl := List.mem_singleton.1 hchain
  trivial

/-- **No core is claimed twice.** In every run in which each collator that finds its relay parent
used counts on from the selector of the parent block, consecutive blocks of a chain on a relay
parent have pairwise distinct cores, and a collator that builds on a chain whose last blocks have
all cores of the relay parent is answered that there is none. -/
theorem cores_claimed_once (hnodup : ∀ relayParent, (claims relayParent).Nodup)
    (hlength : ∀ relayParent, (claims relayParent).length ≤ 256)
    (hr : (machine D P root).Run
      (fun _ s op => Surroundings D P claims s op ∧ CountsOn D root s op) h s) :
    (∀ newer segment older R, newer ++ (segment ++ older) ∈ s.chains →
      (∀ b ∈ segment, b.relayParent = R) → (segment.map fun b => b.core.coreIndex).Nodup) ∧
    ∀ e ∈ h, ∀ collator relayClient segment older R header,
      e.op = .attempt collator relayClient (segment ++ older) R header →
      (∀ b ∈ segment, b.relayParent = R) →
      (available relayClient (e.before.caches collator) R.hash).isSome →
      (∀ core ∈ claims R.hash, core ∈ segment.map fun b => b.core.coreIndex) →
      e.answer = .ok none := by
  constructor
  · intro newer segment older R hmem hsegment
    have hcounted := ((inOrder_of_run hlength hr).chains _ hmem).of_append
    have hcores := hcounted.nodup (R := R) (hnodup R.hash)
    rw [onRelayParent_append hsegment, List.map_append] at hcores
    exact hcores.of_append_left
  · intro e he collator relayClient segment older R header hop hsegment hsome hall
    obtain ⟨_, hbefore, ⟨hsurroundings, hcounts⟩, hevent⟩ := hr.mem_event he
    have hs := inOrder_of_run hlength hbefore
    obtain ⟨data, hdata⟩ := Option.isSome_iff_exists.1 hsome
    rw [hop] at hsurroundings hcounts
    obtain ⟨hgenuine, hanswer⟩ := buildOn_inOrder hs hsurroundings hcounts
      header.isSome hdata
    have hle : (claims R.hash).length ≤ (onRelayParent R (segment ++ older)).length := by
      refine length_le_of_all_claimed (hnodup R.hash) fun core hcore => ?_
      rw [onRelayParent_append hsegment, List.map_append]
      exact List.mem_append_left _ (hall core hcore)
    have hnone : coreAt P (data.claimQueue P.relayParentOffset.val P.paraId)
        (onRelayParent R (segment ++ older)).length = none := by
      unfold coreAt
      rcases hgenuine with hclaims | hclaims <;> rw [hclaims]
      · rw [List.getElem?_eq_none hle, Option.map_none]
      · rfl
    rw [hnone] at hanswer
    rw [hevent, hop]
    simp only [Machine.event, machine, Op.run, hanswer]

end Runs

section Sample

/-- A digest whose first item names the relay parent; nobody adds a core info. -/
def sampleDigest : CumulusDigest ℕ where
  extractRelayParent digest := match digest with
    | .other [n] :: _ => some n.toNat
    | _ => none
  extractRelayParentStorageRoot _ := none
  findCoreInfo _ := none

def samplePara : Para := ⟨.lit 1, .lit 0⟩

def sampleCores : List CoreIndex := [.lit 10, .lit 11, .lit 12]

def sampleClaims (_ : ℕ) : List CoreIndex := sampleCores

def sampleParent : RelayHeader ℕ := ⟨7, .replicate 32 0⟩

def sampleClient : RelayClient ℕ where
  claimQueue relayParent := some fun _ _ => sampleClaims relayParent
  header relayParent := some ⟨relayParent, .replicate 32 0⟩
  maxPovSize _ := some (.lit 1000)

def sampleHeader (number : ℕ) : Header Unit := ⟨(), number, (), (), [.other [7]]⟩

/-- The block with this number, which claimed the core of this selector. -/
def sampleBlock (number : ℕ) (selector : U8) (core : CoreIndex) : Block ℕ Unit :=
  ⟨sampleHeader number, sampleParent, ⟨selector, .lit 0, core, 3⟩⟩

/-- The collator builds the block with this number on the chain. -/
def sampleAttempt (collator : Bool) (number : ℕ) (chain : List (Block ℕ Unit)) : Op ℕ Unit Bool :=
  .attempt collator sampleClient chain sampleParent (some (sampleHeader number))

def sampleRun (ops : List (Op ℕ Unit Bool)) : List (RunEvent ℕ Unit Bool) × State ℕ Unit Bool :=
  (machine sampleDigest samplePara (sampleHeader 0)).replay [] ⟨fun _ => [], [[]]⟩ ops

theorem sampleAttempt_surroundings {s : State ℕ Unit Bool} {collator : Bool} {number : ℕ}
    {chain : List (Block ℕ Unit)} (hnumber : number ≠ 0) (hchain : chain ∈ s.chains) :
    Surroundings sampleDigest samplePara sampleClaims s (sampleAttempt collator number chain) := by
  refine ⟨fun relayParent queue hqueue => ?_, hchain, fun built hbuilt => ?_⟩
  · obtain rfl := Option.some.inj hqueue
    rfl
  · obtain rfl := Option.some.inj hbuilt
    exact ⟨hnumber, .inl rfl⟩

/-- One collator builds two blocks. -/
def oneCollator : List (RunEvent ℕ Unit Bool) × State ℕ Unit Bool :=
  sampleRun [sampleAttempt true 1 [], sampleAttempt true 2 [sampleBlock 1 (.lit 0) (.lit 10)]]

theorem cores_claimed_once_test :
    [sampleBlock 2 (.lit 1) (.lit 11), sampleBlock 1 (.lit 0) (.lit 10)] ∈ oneCollator.2.chains ∧
      ([sampleBlock 2 (.lit 1) (.lit 11), sampleBlock 1 (.lit 0) (.lit 10)].map
        fun b => b.core.coreIndex).Nodup := by
  have hrun : (machine sampleDigest samplePara (sampleHeader 0)).Run (fun _ s op =>
      Surroundings sampleDigest samplePara sampleClaims s op ∧
        CountsOn sampleDigest (sampleHeader 0) s op) oneCollator.1 oneCollator.2 := by
    refine Machine.run_replay _ (.start rfl)
      ⟨⟨?_, .inl rfl⟩, ⟨?_, .inr ⟨_, _, rfl, rfl, rfl⟩⟩, trivial⟩
    · exact sampleAttempt_surroundings (by decide) List.mem_cons_self
    · exact sampleAttempt_surroundings (by decide) List.mem_cons_self
  have hmem : [sampleBlock 2 (.lit 1) (.lit 11), sampleBlock 1 (.lit 0) (.lit 10)] ∈
      oneCollator.2.chains := List.mem_cons_self
  have hnodup : sampleCores.Nodup := by decide
  have hlength : sampleCores.length ≤ 256 := by decide
  refine ⟨hmem, (cores_claimed_once (fun _ => hnodup) (fun _ => hlength) hrun).1 [] _ []
    sampleParent hmem ?_⟩
  simp [sampleBlock]

/-- Two collators take turns: the second one claims the core after the first, and so does the first
one again. -/
def turns : List (RunEvent ℕ Unit Bool) × State ℕ Unit Bool :=
  sampleRun [sampleAttempt true 1 [], sampleAttempt false 2 [sampleBlock 1 (.lit 0) (.lit 10)],
    sampleAttempt true 3 [sampleBlock 2 (.lit 1) (.lit 11), sampleBlock 1 (.lit 0) (.lit 10)]]

theorem turns_claim_core_twice :
    (machine sampleDigest samplePara (sampleHeader 0)).Run
      (fun _ s op => Surroundings sampleDigest samplePara sampleClaims s op) turns.1 turns.2 ∧
    [sampleBlock 3 (.lit 1) (.lit 11), sampleBlock 2 (.lit 1) (.lit 11),
      sampleBlock 1 (.lit 0) (.lit 10)] ∈ turns.2.chains ∧
    (sampleClaims 7).Nodup ∧
    ¬ ([sampleBlock 3 (.lit 1) (.lit 11), sampleBlock 2 (.lit 1) (.lit 11),
      sampleBlock 1 (.lit 0) (.lit 10)].map fun b => b.core.coreIndex).Nodup := by
  refine ⟨?_, List.mem_cons_self, by decide, by decide⟩
  refine Machine.run_replay _ (.start rfl) ⟨?_, ?_, ?_, trivial⟩
  · exact sampleAttempt_surroundings (by decide) List.mem_cons_self
  · exact sampleAttempt_surroundings (by decide) List.mem_cons_self
  · exact sampleAttempt_surroundings (by decide) List.mem_cons_self

end Sample

end BlockBuilder

end Moonkit
