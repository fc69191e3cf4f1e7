import Moonkit.AuthorInherent
import Moonkit.Proofs.RandomnessEffect
import Moonkit.RandomnessMock

/-!
# The VRF key of a block

Author-inherent credits the first nimbus item of a digest. The randomness pallet checks the VRF
output under the key of the last nimbus item that stands before the first VRF item, and rejects a
digest with no nimbus item there. Where both items carry one id, the key is that of the credited
author.
-/

namespace Moonkit

/-- What the nimbus items among some pre-runtime items carry, in order. -/
def nimbusClaims (items : List (ConsensusEngineId × List UInt8)) : List (List UInt8) :=
  items.filterMap fun item => if item.1 = nimbusEngineId then some item.2 else none

section Claims

variable {items : List (ConsensusEngineId × List UInt8)} {id : ConsensusEngineId}
  {data : List UInt8}

theorem nimbusClaims_nimbus :
    nimbusClaims ((nimbusEngineId, data) :: items) = data :: nimbusClaims items := by
  simp [nimbusClaims]

theorem nimbusClaims_other (hid : id ≠ nimbusEngineId) :
    nimbusClaims ((id, data) :: items) = nimbusClaims items := by
  simp [nimbusClaims, hid]

end Claims

section Author

open AuthorInherent

variable {AuthorId : Type} {env : Env AuthorId} {s s' : State AuthorId}

theorem findAuthor_eq_ok : ∀ {items : List (ConsensusEngineId × List UInt8)}
    {found : Option AuthorId}, findAuthor env items s = (.ok found, s') →
    s' = s ∧ (found = none ∧ nimbusClaims items = [] ∨
      ∃ author account, (nimbusClaims items).head?.bind (Bytes.decode 32) = some author
        ∧ env.lookupAccount author = some account ∧ found = some account)
  | [], found, h => by
    simp only [findAuthor, Call.pure_apply, Prod.mk.injEq, Outcome.ok.injEq] at h
    exact ⟨h.2.symm, .inl ⟨h.1.symm, rfl⟩⟩
  | (id, data) :: items, found, h => by
    by_cases hid : id = nimbusEngineId
    · subst hid
      simp only [findAuthor, if_true, Call.bind_eq_ok, Call.expect_eq_ok] at h
      obtain ⟨author, _, ⟨hdecode, rfl⟩, account, _, ⟨hlookup, rfl⟩, hfound⟩ := h
      simp only [Call.pure_apply, Prod.mk.injEq, Outcome.ok.injEq] at hfound
      refine ⟨hfound.2.symm, .inr ⟨author, account, ?_, hlookup, hfound.1.symm⟩⟩
      simp [nimbusClaims_nimbus, hdecode]
    · simp only [findAuthor, if_neg hid] at h
      rw [nimbusClaims_other hid]
      exact findAuthor_eq_ok h

/-- The author that `on_initialize` stores is the account of the first nimbus item, if there is
one. -/
theorem onInitialize_author (h : onInitialize s = (.ok (), s')) {data : List UInt8}
    (hdata : (nimbusClaims (s.digest.filterMap DigestItem.asPreRuntime)).head? = some data) :
    ∃ author account, Bytes.decode 32 data = some author
      ∧ s.env.lookupAccount author = some account ∧ s'.author = some account := by
  unfold onInitialize at h
  rw [Call.get_bind, Call.bind_eq_ok] at h
  obtain ⟨found, s₁, hfind, hput⟩ := h
  obtain ⟨rfl, ⟨-, hnil⟩ | ⟨author, account, hauthor, haccount, rfl⟩⟩ := findAuthor_eq_ok hfind
  · simp [hnil] at hdata
  · rw [hdata] at hauthor
    simp only [Call.modify_apply, Prod.mk.injEq, true_and] at hput
    exact ⟨author, account, hauthor, haccount, by rw [← hput]⟩

end Author

section Key

open Randomness

variable {AccountId Hash Ledger : Type} {C : Config AccountId Hash Ledger} {s s₀ s₁ : State C}

/-- The pre-runtime items before the first VRF item. -/
def beforeVrf (digest : List DigestItem) : List (ConsensusEngineId × List UInt8) :=
  (digest.filterMap DigestItem.asPreRuntime).takeWhile fun item => item.1 ≠ vrfEngineId

theorem beforeVrf_skip {item : DigestItem} (logs : List DigestItem) (h : item.asPreRuntime = none) :
    beforeVrf (item :: logs) = beforeVrf logs := by
  simp [beforeVrf, h]

theorem beforeVrf_vrf {item : DigestItem} {data : List UInt8} (logs : List DigestItem)
    (h : item.asPreRuntime = some (vrfEngineId, data)) : beforeVrf (item :: logs) = [] := by
  simp [beforeVrf, h]

theorem beforeVrf_other {item : DigestItem} {id : ConsensusEngineId} {data : List UInt8}
    (logs : List DigestItem) (h : item.asPreRuntime = some (id, data)) (hid : id ≠ vrfEngineId) :
    beforeVrf (item :: logs) = (id, data) :: beforeVrf logs := by
  simp [beforeVrf, h, hid]

/-- The key found is that of the last nimbus item before the first VRF item. -/
theorem findPreDigest_key : ∀ {logs : List DigestItem} {key₀ key : Option VrfId} {pre : PreDigest},
    findPreDigest s logs key₀ s₀ = (.ok (key, pre), s₁) →
    nimbusClaims (beforeVrf logs) = [] ∧ key = key₀ ∨
      ∃ nimbusId vrfId,
        (nimbusClaims (beforeVrf logs)).getLast?.bind (Bytes.decode 32) = some nimbusId
        ∧ s.env.lookupKeys nimbusId = some vrfId ∧ key = some vrfId
  | [], _, _, _, h => by simp [findPreDigest] at h
  | item :: logs, key₀, key, pre, h => by
    unfold findPreDigest at h
    rcases hitem : item.asPreRuntime with _ | ⟨id, data⟩
    · rw [hitem] at h
      rw [beforeVrf_skip logs hitem]
      exact findPreDigest_key h
    · simp only [hitem] at h
      split_ifs at h with hvrf hnimbus
      · subst hvrf
        obtain ⟨pre', s₂, -, hpure⟩ := Call.bind_eq_ok.1 h
        simp only [Call.pure_apply, Prod.mk.injEq, Outcome.ok.injEq] at hpure
        rw [beforeVrf_vrf logs hitem]
        exact .inl ⟨rfl, hpure.1.1.symm⟩
      · subst hnimbus
        simp only [Call.bind_eq_ok, Call.expect_eq_ok] at h
        obtain ⟨nimbusId, _, ⟨hdecode, rfl⟩, vrfId, _, ⟨hkey, rfl⟩, hrest⟩ := h
        rw [beforeVrf_other logs hitem hvrf, nimbusClaims_nimbus]
        rcases findPreDigest_key hrest with ⟨hnil, rfl⟩ | ⟨last, lastKey, hlast, hlastKey, rfl⟩
        · exact .inr ⟨nimbusId, vrfId, by simp [hnil, hdecode], hkey, rfl⟩
        · refine .inr ⟨last, lastKey, ?_, hlastKey, rfl⟩
          obtain ⟨last', hget, hdecode'⟩ := Option.bind_eq_some_iff.1 hlast
          rw [List.getLast?_cons, hget]
          exact hdecode'
      · rw [beforeVrf_other logs hitem hvrf, nimbusClaims_other hnimbus]
        exact findPreDigest_key h

/-- The pallet checks the output and the proof of `pre` under `key`. -/
def ChecksUnder (s : State C) (key : VrfId) (pre : PreDigest) : Prop :=
  findPreDigest s s.env.digest none s = (.ok (some key, pre), s)
    ∧ C.vrf.vrfVerify key (s.localVrfOutput.getD C.hashDefault) pre.vrfOutput pre.vrfProof = true

theorem getAndVerifyRandomness_checks {randomness : Hash}
    (h : getAndVerifyRandomness s = (.ok randomness, s₁)) : ∃ key pre, ChecksUnder s key pre := by
  unfold getAndVerifyRandomness at h
  rw [Call.get_bind, Call.bind_eq_ok] at h
  obtain ⟨⟨key?, pre⟩, s₂, hfind, h⟩ := h
  simp only [Call.bind_eq_ok, Call.expect_eq_ok, Call.assert_eq_ok] at h
  obtain ⟨key, _, ⟨rfl, rfl⟩, -, _, ⟨-, rfl⟩, -, _, ⟨hverify, rfl⟩, -⟩ := h
  obtain rfl := (findPreDigest_observes s s.env.digest none).same hfind
  exact ⟨key, pre, hfind, hverify⟩

end Key

/-- The id in the first nimbus item of a digest. -/
def firstNimbusId (digest : List DigestItem) : Option NimbusId :=
  (nimbusClaims (digest.filterMap DigestItem.asPreRuntime)).head?.bind (Bytes.decode 32)

/-- The id in the last nimbus item before the first VRF item. -/
def nimbusIdBeforeVrf (digest : List DigestItem) : Option NimbusId :=
  (nimbusClaims (beforeVrf digest)).getLast?.bind (Bytes.decode 32)

section Agreement

open Randomness

variable {AuthorId AccountId Hash Ledger : Type} {C : Config AccountId Hash Ledger}

theorem checksUnder_key {r : State C} {key : VrfId} {pre : PreDigest} (h : ChecksUnder r key pre) :
    ∃ nimbusId, nimbusIdBeforeVrf r.env.digest = some nimbusId
      ∧ r.env.lookupKeys nimbusId = some key := by
  rcases findPreDigest_key h.1 with ⟨-, hnone⟩ | ⟨nimbusId, vrfId, hid, hkey, heq⟩
  · simp at hnone
  · rw [← Option.some.inj heq] at hkey
    exact ⟨nimbusId, hid, hkey⟩

/-- **The VRF key.** Where the first nimbus item of the digest and the last one before the first
VRF item carry one id, an accepted output was checked under the key of the author whose account is
stored. With no nimbus item before the first VRF item the output is never accepted. -/
theorem vrf_key_of_credited_author (s : AuthorInherent.State AuthorId) (r : State C)
    (hdigest : r.env.digest = s.digest) :
    (∀ s' r' randomness, AuthorInherent.onInitialize s = (.ok (), s') →
      getAndVerifyRandomness r = (.ok randomness, r') →
      nimbusIdBeforeVrf s.digest = firstNimbusId s.digest →
      ∃ author account key pre, firstNimbusId s.digest = some author
        ∧ s.env.lookupAccount author = some account ∧ s'.author = some account
        ∧ r.env.lookupKeys author = some key ∧ ChecksUnder r key pre) ∧
    (nimbusClaims (beforeVrf s.digest) = [] → (getAndVerifyRandomness r).1.isPanic = true) := by
  rw [← hdigest]
  constructor
  · intro s' r' randomness hinit hvrf hsame
    obtain ⟨key, pre, hchecks⟩ := getAndVerifyRandomness_checks hvrf
    obtain ⟨author, hauthor, hkey⟩ := checksUnder_key hchecks
    rw [hauthor] at hsame
    obtain ⟨data, hdata, hdecode⟩ := Option.bind_eq_some_iff.1 hsame.symm
    rw [hdigest] at hdata
    obtain ⟨author', account, hdecode', haccount, hstored⟩ := onInitialize_author hinit hdata
    obtain rfl : author' = author := Option.some.inj (hdecode'.symm.trans hdecode)
    exact ⟨author', account, key, pre, hsame.symm, haccount, hstored, hkey, hchecks⟩
  · intro hnil
    rcases getAndVerifyRandomness_observes r with ⟨randomness, hok⟩ | ⟨m, hm⟩
    · obtain ⟨key, pre, hchecks⟩ := getAndVerifyRandomness_checks hok
      obtain ⟨author, hauthor, -⟩ := checksUnder_key hchecks
      simp [nimbusIdBeforeVrf, hnil] at hauthor
    · rw [hm]
      rfl

end Agreement

section Test

open Randomness

/-- The mock runtime with a VRF whose output is the key it was made with. -/
def vrfTest : Config H160 H256 Mock.Ledger :=
  { Mock.test with
    vrf :=
      { decodePreDigest := fun data => (Bytes.decode 32 data).bind fun output =>
          (Bytes.decode 64 (data.drop 32)).map fun proof => ⟨output, proof⟩
        validPublicKey := fun _ => true
        vrfVerify := fun key _ output _ => output = key
        makeBytes := fun _ _ output => some output
        decodeHash := some } }

def aliceId : NimbusId := Vector.replicate 32 1

def bobId : NimbusId := Vector.replicate 32 2

/-- The VRF key registered with a nimbus id. -/
def vrfKeyOf (nimbusId : NimbusId) : VrfId := nimbusId.map (· + 100)

/-- The VRF item that the owner of a nimbus id makes. -/
def vrfPreDigest (nimbusId : NimbusId) : DigestItem :=
  .preRuntime vrfEngineId (Bytes.encode (vrfKeyOf nimbusId) ++ List.replicate 64 0)

def authorState (digest : List DigestItem) : AuthorInherent.State NimbusId where
  author := none
  inherentIncluded := false
  digest := digest
  env := { lookupAccount := some, canAuthor := fun _ _ => true, slot := 0 }

def randomnessState (digest : List DigestItem) : State vrfTest where
  requests := ∅
  requestCount := 0
  localVrfOutput := none
  relayEpoch := 0
  inherentIncluded := false
  notFirstBlock := true
  randomnessResults := ∅
  previousLocalVrfOutput := Vector.replicate 32 0
  ledger := ⟨0, fun _ => 0⟩
  events := []
  warnings := []
  env :=
    { constants := ⟨0, 1, 0, 0, 0, 0⟩
      blockNumber := 0
      digest := digest
      epochIndex := 0
      epochRandomness := none
      lookupKeys := fun nimbusId => some (vrfKeyOf nimbusId)
      fakeVrf := false }

def nimbusThenVrf : List DigestItem := [.nimbusPreDigest aliceId, vrfPreDigest aliceId]

def vrfThenNimbus : List DigestItem := [vrfPreDigest aliceId, .nimbusPreDigest aliceId]

def twoNimbusThenVrf : List DigestItem :=
  [.nimbusPreDigest aliceId, .nimbusPreDigest bobId, vrfPreDigest bobId]

theorem vrf_key_of_credited_author_test :
    (∃ author account key pre, firstNimbusId nimbusThenVrf = some author
      ∧ (authorState nimbusThenVrf).env.lookupAccount author = some account
      ∧ (AuthorInherent.onInitialize (authorState nimbusThenVrf)).2.author = some account
      ∧ (randomnessState nimbusThenVrf).env.lookupKeys author = some key
      ∧ ChecksUnder (randomnessState nimbusThenVrf) key pre) ∧
    (getAndVerifyRandomness (randomnessState vrfThenNimbus)).1.isPanic = true := by
  constructor
  · exact (vrf_key_of_credited_author (authorState nimbusThenVrf) (randomnessState nimbusThenVrf)
      rfl).1 _ (getAndVerifyRandomness (randomnessState nimbusThenVrf)).2 (vrfKeyOf aliceId)
      (Prod.ext (by decide +kernel) rfl) (Prod.ext (by decide +kernel) rfl) (by decide +kernel)
  · exact (vrf_key_of_credited_author (authorState vrfThenNimbus) (randomnessState vrfThenNimbus)
      rfl).2 (by decide +kernel)

/-- With two nimbus items before the VRF item the first author is credited and the key of the
second is used; and the digest that is accepted with the nimbus item first is rejected with the
VRF item first. -/
theorem second_nimbus_item_keyed :
    ((AuthorInherent.onInitialize (authorState twoNimbusThenVrf)).1 = .ok ()
      ∧ (AuthorInherent.onInitialize (authorState twoNimbusThenVrf)).2.author = some aliceId
      ∧ (getAndVerifyRandomness (randomnessState twoNimbusThenVrf)).1 = .ok (vrfKeyOf bobId)
      ∧ (∃ pre, ChecksUnder (randomnessState twoNimbusThenVrf) (vrfKeyOf bobId) pre)
      ∧ (randomnessState twoNimbusThenVrf).env.lookupKeys aliceId ≠ some (vrfKeyOf bobId)) ∧
    (getAndVerifyRandomness (randomnessState nimbusThenVrf)).1 = .ok (vrfKeyOf aliceId) ∧
    (getAndVerifyRandomness (randomnessState vrfThenNimbus)).1 =
      .panic "VrfId encoded in pre-runtime digest must be valid" := by
  refine ⟨⟨?_, ?_, ?_, ⟨⟨vrfKeyOf bobId, Vector.replicate 64 0⟩, Prod.ext ?_ ?_, ?_⟩, ?_⟩, ?_, ?_⟩
  · decide +kernel
  · decide +kernel
  · decide +kernel
  · decide +kernel
  · exact (findPreDigest_observes _ _ _).same rfl
  · decide +kernel
  · decide +kernel
  · decide +kernel
  · decide +kernel

end Test

end Moonkit
