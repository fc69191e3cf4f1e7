import Moonkit.Proofs.Prediction
import Moonkit.SlotClaims

/-!
# Blocks of claimed slots

A node that claims a slot by prediction asks the runtime of the parent about its keys. The header it
seals with the claimed key names that key, so the runtime takes the block past its inherents; and
where the node claims nothing, no block sealed with one of its keys gets there. Blocks of manual
seal are sealed with the key their digest names and fare alike.
-/

namespace Moonkit

open NimbusConsensus
open AuthorInherent (verifyAndRemoveSeal executorClaim)
open Template

variable {Hash Body Inputs AccountId Material RuntimeVersion : Type}
  {hash : Header Hash → Hash} {verify : NimbusId → Hash → NimbusSignature → Bool}
  {source : RandomnessSource Hash Material} {paraClient : ParaClient Hash RuntimeVersion}
  {keystore : KeystoreKeys} {parent : Header Hash} {n : U32}

section Claims

/-- `unwrap_or_default` on an answer. -/
theorem toOption_getD_eq_true (x : Except String Bool) :
    x.toOption.getD false = true ↔ x = .ok true := by
  rcases x with e | b <;> simp [Except.toOption]

theorem isEligible_iff {key : List UInt8} : isEligible hash paraClient parent n key = true ↔
    ∃ id, key = Bytes.encode id ∧ paraClient.canAuthor (hash parent) id n parent = .ok true := by
  unfold isEligible
  rcases hid : Bytes.fromSlice 32 key with _ | id
  · simp only [Bool.false_eq_true, false_iff]
    rintro ⟨id, rfl, -⟩
    simp at hid
  · obtain rfl := Bytes.fromSlice_eq_some.1 hid
    simp only [toOption_getD_eq_true]
    constructor
    · exact fun hcan => ⟨id, rfl, hcan⟩
    · rintro ⟨id', hsame, hcan⟩
      rwa [Bytes.encode_injective hsame]

theorem firstEligibleKey_eq_some {key : List UInt8}
    (h : firstEligibleKey hash paraClient keystore parent n = some key) :
    ∃ keys id, keystore = .ok keys ∧ key ∈ keys ∧ key = Bytes.encode id ∧
      paraClient.canAuthor (hash parent) id n parent = .ok true := by
  rcases keystore with e | keys
  · cases h
  · have hfind : keys.find? (isEligible hash paraClient parent n) = some key := h
    obtain ⟨id, hkey, hcan⟩ := isEligible_iff.1 (List.find?_some hfind)
    exact ⟨keys, id, rfl, List.mem_of_find?_eq_some hfind, hkey, hcan⟩

theorem firstEligibleKey_eq_none {keys : List (List UInt8)}
    (h : firstEligibleKey hash paraClient (.ok keys) parent n = none) {id : NimbusId}
    (hid : Bytes.encode id ∈ keys) : paraClient.canAuthor (hash parent) id n parent ≠ .ok true := by
  have hfind : keys.find? (isEligible hash paraClient parent n) = none := h
  intro hcan
  exact List.find?_eq_none.1 hfind _ hid (isEligible_iff.2 ⟨id, rfl, hcan⟩)

variable [DecidableEq RuntimeVersion]

/-- A claim by prediction is what the first eligible key gives. -/
theorem claimSlot_eq_ok {claim : Option NimbusId}
    (hsame : runtimeUpgraded hash paraClient parent = .ok false)
    (h : claimSlot hash paraClient keystore parent n false = .ok claim) :
    firstEligibleKey hash paraClient keystore parent n = claim.map Bytes.encode := by
  unfold claimSlot at h
  rw [hsame] at h
  have hkeys (key : List UInt8) (hkey : firstEligibleKey hash paraClient keystore parent n
      = some key) : ∃ id : NimbusId, key = Bytes.encode id := by
    obtain ⟨-, id, -, -, hid, -⟩ := firstEligibleKey_eq_some hkey
    exact ⟨id, hid⟩
  simp only [bind, Except.bind, Bool.or_self, Bool.false_eq_true, if_false] at h
  rcases hkey : firstEligibleKey hash paraClient keystore parent n with _ | key
  · rw [hkey] at h
    cases h
    rfl
  · obtain ⟨id, rfl⟩ := hkeys key hkey
    simp only [hkey, Bytes.fromSlice_encode] at h
    cases h
    rfl

end Claims

section Blocks

variable [DecidableEq AccountId] {collator : Collator Hash Body Inputs}
  {r : Runtime Hash AccountId Material}

/-- The client asks the runtime on the state `r` of the parent. -/
def AsksRuntime (source : RandomnessSource Hash Material) (hash : Header Hash → Hash)
    (paraClient : ParaClient Hash RuntimeVersion) (parent : Header Hash)
    (r : Runtime Hash AccountId Material) : Prop :=
  ∀ id slot, paraClient.canAuthor (hash parent) id slot parent
    = .ok (nimbusApi source hash r id slot parent)

/-- What the proposer proposes is a block on the parent. -/
def ProposesNext (hash : Header Hash → Hash) (collator : Collator Hash Body Inputs) : Prop :=
  ∀ parent inputs digest proposal, collator.propose parent inputs digest = .ok proposal →
    IsNext hash parent proposal.header

theorem sealHeader_eq_ok {header : Header Hash} {author : NimbusId} {item : DigestItem}
    (h : sealHeader hash collator header (Bytes.encode author) = .ok item) :
    ∃ raw signature, collator.signWith (Bytes.encode author) (hash header) = .ok (some raw) ∧
      Bytes.fromSlice 64 raw = some signature ∧ item = .nimbusSeal signature := by
  unfold sealHeader at h
  simp only [Outcome.bind_eq_ok, Outcome.expect_eq_ok] at h
  obtain ⟨signed, hsigned, raw, rfl, signature, hsig, hitem⟩ := h
  rcases hs : collator.signWith (Bytes.encode author) (hash header) with e | signed
  · simp [hs, Except.toOption] at hsigned
  · simp only [hs, Except.toOption, Option.some.injEq] at hsigned
    cases hitem
    exact ⟨raw, signature, hsigned ▸ rfl, hsig, rfl⟩

/-- The runtime takes a header past its inherents that is sealed with the key it names first, where
the prediction says so for that key. -/
theorem accepts_sealed (hsign : SignsValid verify collator) {header : Header Hash}
    {author : NimbusId} {item : DigestItem} (hnext : IsNext hash parent header)
    (hclaim : header.digest.findSome? executorClaim = some (Bytes.encode author))
    (hseal : sealHeader hash collator header (Bytes.encode author) = .ok item)
    (hapi : nimbusApi source hash r author n parent = true) :
    ∃ r', executeInherents source hash verify (header.pushDigest item) n r = (.ok (), r') := by
  obtain ⟨raw, signature, hraw, hsig, rfl⟩ := sealHeader_eq_ok hseal
  set u : Unsealed Hash := ⟨header, .nimbusSeal signature, signature, author⟩ with hu
  have hremove : verifyAndRemoveSeal hash verify (header.pushDigest (.nimbusSeal signature))
      = .ok u :=
    (verifyAndRemoveSeal_eq_ok hash verify).2
      ⟨rfl, by simp [hu], hclaim, hsign _ _ _ _ hraw hsig⟩
  have hnext' : IsNext hash parent (header.pushDigest (.nimbusSeal signature)) := hnext
  exact (inherents_accepted_iff hnext' n).2 ⟨u, hremove, hapi⟩

variable [DecidableEq RuntimeVersion]

/-- The runtime takes a block past its inherents that is built with the key claimed by
prediction. -/
theorem built_block_accepted (hkeep : KeepsDigest collator) (hsign : SignsValid verify collator)
    (hpropose : ProposesNext hash collator) (hask : AsksRuntime source hash paraClient parent r)
    (hsame : runtimeUpgraded hash paraClient parent = .ok false) {id : NimbusId}
    {timestamp : U64} {additional : Option (List DigestItem)} {inputs : Inputs}
    {block : Block Hash Body}
    (hclaim : claimSlot hash paraClient keystore parent n false = .ok (some id))
    (hb : buildBlockAndImport hash collator parent ⟨id, timestamp⟩ additional inputs
      = .ok (some block)) :
    ∃ r', executeInherents source hash verify block.header n r = (.ok (), r') := by
  obtain ⟨keys, id', -, -, hid, hcan⟩ := firstEligibleKey_eq_some (claimSlot_eq_ok hsame hclaim)
  obtain rfl := Bytes.encode_injective hid
  rw [hask, Except.ok.injEq] at hcan
  unfold buildBlockAndImport at hb
  simp only [Outcome.bind_eq_ok, Outcome.ofExcept_eq_ok, Outcome.expect_eq_ok] at hb
  obtain ⟨proposal, hproposal, importable, himport, body, -, -, -, hblock⟩ := hb
  cases hblock
  obtain ⟨item, hseal, hparams⟩ := Outcome.bind_eq_ok.1 himport
  cases hparams
  exact accepts_sealed hsign (hpropose _ _ _ _ hproposal)
    (claims_author (hkeep _ _ _ _ hproposal)).2 hseal hcan

/-- The proposer and the keystore work as documented, and the client asks the runtimes of the
blocks. -/
structure Honest (source : RandomnessSource Hash Material) (hash : Header Hash → Hash)
    (verify : NimbusId → Hash → NimbusSignature → Bool)
    (stateAt : Hash → Runtime Hash AccountId Material) (collator : Collator Hash Body Inputs)
    (paraClient : ParaClient Hash RuntimeVersion) : Prop where
  keepsDigest : KeepsDigest collator
  signsValid : SignsValid verify collator
  proposesNext : ProposesNext hash collator
  asksRuntime : ∀ parent, AsksRuntime source hash paraClient parent (stateAt (hash parent))

/-- **Claimed slots.** Where the runtime has not changed in the parent, the runtime takes every
block past its inherents that a node builds with the key it claimed by prediction; and if the node
claimed nothing, it takes no block there that is sealed with a key of the node's keystore. -/
theorem claimed_block_accepted (hkeep : KeepsDigest collator) (hsign : SignsValid verify collator)
    (hpropose : ProposesNext hash collator) (hask : AsksRuntime source hash paraClient parent r)
    (hsame : runtimeUpgraded hash paraClient parent = .ok false) :
    (∀ id timestamp additional inputs block,
      claimSlot hash paraClient keystore parent n false = .ok (some id) →
      buildBlockAndImport hash collator parent ⟨id, timestamp⟩ additional inputs
        = .ok (some block) →
      ∃ r', executeInherents source hash verify block.header n r = (.ok (), r')) ∧
    (claimSlot hash paraClient keystore parent n false = .ok none →
      ∀ keys header u, keystore = .ok keys → IsNext hash parent header →
        verifyAndRemoveSeal hash verify header = .ok u → Bytes.encode u.author ∈ keys →
        ∀ r', executeInherents source hash verify header n r ≠ (.ok (), r')) := by
  refine ⟨fun id timestamp additional inputs block hclaim hb =>
    built_block_accepted hkeep hsign hpropose hask hsame hclaim hb,
    fun hclaim keys header u hkeys hnext hu hmem r' hexec => ?_⟩
  subst hkeys
  obtain ⟨u', hu', hapi⟩ := (inherents_accepted_iff hnext n).1 ⟨r', hexec⟩
  obtain rfl := Outcome.ok_unique hu hu'
  refine firstEligibleKey_eq_none (claimSlot_eq_ok hsame hclaim) hmem ?_
  rw [hask, hapi]

/-- A collator with one signature for everything, and a keystore of two keys. -/
def sampleProducer : Collator ℕ Unit Unit where
  propose := fun parent _ digest =>
    .ok ⟨{ parent with parentHash := 0, number := parent.number + 1, digest := digest }, ()⟩
  signWith := fun _ _ => .ok (some (Bytes.encode (Vector.replicate 64 0)))
  importBlock := fun _ => .ok ()

def sampleKeys : List (List UInt8) := [Bytes.encode (sampleId 2), [7], Bytes.encode (sampleId 1)]

/-- A node that sees the genesis of two accounts. -/
def sampleClient : ParaClient ℕ ℕ where
  version _ := .ok 1
  canAuthor _ id slot parent :=
    .ok (nimbusApi sampleSource (fun _ => 0) sampleRuntime id slot parent)

/-- Who proposes what is asked for and signs it with that signature is honest. -/
theorem sampleClient_honest {Inputs : Type} {collator : Collator ℕ Unit Inputs}
    (hpropose : ∀ parent inputs digest, collator.propose parent inputs digest = .ok
      ⟨{ parent with parentHash := 0, number := parent.number + 1, digest := digest }, ()⟩)
    (hsign : ∀ id message, collator.signWith id message
      = .ok (some (Bytes.encode (Vector.replicate 64 0)))) :
    Honest sampleSource (fun _ => 0) (fun _ _ signature => signature = Vector.replicate 64 0)
      (fun _ => sampleRuntime) collator sampleClient where
  keepsDigest parent inputs digest proposal h := by
    rw [hpropose, Except.ok.injEq] at h
    rw [← h]
  signsValid id message raw signature h hraw := by
    rw [hsign, Except.ok.injEq, Option.some.injEq] at h
    rw [← h, Bytes.fromSlice_encode, Option.some.injEq] at hraw
    simp [hraw]
  proposesNext parent inputs digest proposal h := by
    rw [hpropose, Except.ok.injEq] at h
    rw [← h]
    exact ⟨rfl, rfl⟩
  asksRuntime _ _ _ := rfl

theorem sampleProducer_honest : Honest sampleSource (fun _ => 0)
    (fun _ _ signature => signature = Vector.replicate 64 0) (fun _ => sampleRuntime)
    sampleProducer sampleClient :=
  sampleClient_honest (fun _ _ _ => rfl) fun _ _ => rfl

/-- A block after the sample header under a key that may not author at slot 5. -/
def sampleOutOfTurn : Header ℕ :=
  { misleading with
    parentHash := 0, number := 2
    digest := [.nimbusPreDigest (sampleId 2), .nimbusSeal (Vector.replicate 64 0)] }

theorem claimed_block_accepted_sample :
    (∃ block, buildBlockAndImport (fun _ => 0) sampleProducer misleading ⟨sampleId 1, 0⟩ none ()
        = .ok (some block) ∧
      ∃ r', executeInherents sampleSource (fun _ => 0)
        (fun _ _ signature => signature = Vector.replicate 64 0) block.header (.lit 5) sampleRuntime
          = (.ok (), r')) ∧
    ∀ r', executeInherents sampleSource (fun _ => 0)
      (fun _ _ signature => signature = Vector.replicate 64 0) sampleOutOfTurn (.lit 5)
        sampleRuntime ≠ (.ok (), r') := by
  obtain ⟨hkeep, hsign, hpropose, hask⟩ := sampleProducer_honest
  have hsame : runtimeUpgraded (fun _ => 0) sampleClient misleading = .ok false := rfl
  constructor
  · obtain ⟨block, hb⟩ : ∃ block, buildBlockAndImport (fun _ => 0) sampleProducer misleading
      ⟨sampleId 1, 0⟩ none () = .ok (some block) := ⟨_, rfl⟩
    have hclaim : claimSlot (fun _ => 0) sampleClient (.ok sampleKeys) misleading (.lit 5) false
        = .ok (some (sampleId 1)) := by decide +kernel
    exact ⟨block, hb, (claimed_block_accepted hkeep hsign hpropose (hask misleading) hsame).1
      _ _ _ _ _ hclaim hb⟩
  · have hclaim : claimSlot (fun _ => 0) sampleClient (.ok [Bytes.encode (sampleId 2)]) misleading
        (.lit 5) false = .ok none := by decide +kernel
    exact (claimed_block_accepted hkeep hsign hpropose (hask misleading) hsame).2 hclaim _
      sampleOutOfTurn _ rfl ⟨rfl, rfl⟩ rfl (List.mem_singleton_self _)

omit [DecidableEq AccountId] [DecidableEq RuntimeVersion] in
theorem createDigest_eq_ok {provideDigests : NimbusId → Hash → List DigestItem}
    {digest : List DigestItem}
    (h : createDigest hash paraClient keystore provideDigests parent (.ok (some n)) = .ok digest) :
    ∃ keys id, keystore = .ok keys ∧ Bytes.encode id ∈ keys ∧
      paraClient.canAuthor (hash parent) id n parent = .ok true ∧
      digest = [.nimbusPreDigest id] ++ provideDigests id (hash parent) := by
  unfold createDigest at h
  simp only [Outcome.bind_eq_ok, Outcome.expect_eq_ok] at h
  obtain ⟨data, hdata, m, hm, h⟩ := h
  cases hdata
  cases hm
  rcases hkey : firstEligibleKey hash paraClient keystore parent n with _ | key
  · rw [hkey] at h
    cases h
  · obtain ⟨keys, id, hkeys, hmem, rfl, hcan⟩ := firstEligibleKey_eq_some hkey
    simp only [hkey, Bytes.fromSlice_encode] at h
    cases h
    exact ⟨keys, id, hkeys, hmem, hcan, rfl⟩

omit [DecidableEq RuntimeVersion] in
/-- **Manual seal.** A block proposed with the digest of manual seal and sealed by it is taken by
the runtime past its inherents. The verifier accepts its seal under the key the digest was made
for, and lets the block through, back to what was proposed, wherever the inherents pass. -/
theorem manual_seal_block_accepted (hsign : SignsValid verify collator)
    (hask : AsksRuntime source hash paraClient parent r)
    {provideDigests : NimbusId → Hash → List DigestItem} {digest : List DigestItem}
    (hdigest : createDigest hash paraClient keystore provideDigests parent (.ok (some n))
      = .ok digest) {params params' : BlockImportParams Hash Body}
    (hnext : IsNext hash parent params.header) (hkeep : digest <+: params.header.digest)
    (hpost : params.postDigests = [])
    (happend : appendBlockImport hash collator params = .ok params') :
    (∃ r', executeInherents source hash verify params'.postHeader n r = (.ok (), r')) ∧
    ∃ u, verifySeal hash verify params'.postHeader = .ok u ∧ u.header = params.header ∧
      Bytes.encode u.author ∈ (keystore.toOption.getD []) ∧
      nimbusApi source hash r u.author n parent = true ∧
      ∀ (inherents : InherentChecks Hash Body) (imported : BlockImportParams Hash Body),
        imported.header = params'.postHeader → imported.withState = false →
        imported.stateAction.skipExecutionChecks = false →
        (∀ body, imported.body = some body →
          verifyInherents inherents params.header body = .ok ()) →
        verifyBlock hash verify inherents imported = .ok { imported with
          header := params.header
          postDigests := imported.postDigests ++ params'.postDigests
          forkChoice := some .longestChain } := by
  obtain ⟨keys, id, rfl, hmem, hcan, rfl⟩ := createDigest_eq_ok hdigest
  rw [hask, Except.ok.injEq] at hcan
  have hprefix : preDigests ⟨id, 0⟩ (some (provideDigests id (hash parent)))
      <+: params.header.digest := hkeep
  obtain ⟨hverifier, hexecutor⟩ := claims_author hprefix
  unfold appendBlockImport at happend
  simp only [Outcome.bind_eq_ok, Outcome.expect_eq_ok, Outcome.okOr_eq_ok] at happend
  obtain ⟨claimed, hclaimed, key, hkey, item, hseal, hparams⟩ := happend
  obtain rfl := Option.some.inj (hexecutor.symm.trans hclaimed)
  rw [Bytes.fromSlice_encode, Option.some.injEq] at hkey
  subst hkey
  cases hparams
  have hpostHeader : ({ params with postDigests := params.postDigests ++ [item] } :
      BlockImportParams Hash Body).postHeader = params.header.pushDigest item := by
    simp only [BlockImportParams.postHeader, hpost, List.nil_append, List.foldl_cons,
      List.foldl_nil]
  rw [hpostHeader]
  refine ⟨accepts_sealed hsign hnext hexecutor hseal hcan, ?_⟩
  obtain ⟨raw, signature, hraw, hsig, rfl⟩ := sealHeader_eq_ok hseal
  set u : Unsealed Hash := ⟨params.header, .nimbusSeal signature, signature, id⟩ with hu
  have hverify : verifySeal hash verify (params.header.pushDigest (.nimbusSeal signature))
      = .ok u :=
    (verifySeal_eq_ok hash verify).2 ⟨rfl, by simp [hu], hverifier, hsign _ _ _ _ hraw hsig⟩
  refine ⟨u, hverify, rfl, hmem, hcan, fun inherents imported himported hstate hskip hpass => ?_⟩
  rw [← himported] at hverify
  rw [verifyBlock_of_verifySeal verify hstate hskip hverify hpass, hpost, List.nil_append]

/-- The params of a block that manual seal proposes after the sample header. -/
def sampleParams : BlockImportParams ℕ Unit :=
  BlockImportParams.new .own { misleading with
    parentHash := 0, number := 2, digest := [.nimbusPreDigest (sampleId 1), .other [7]] }

/-- A node that finds every inherent in order. -/
def sampleInherents : InherentChecks ℕ Unit where
  Providers := Unit
  InherentData := Unit
  createInherentDataProviders := fun _ => .ok ()
  createInherentData := fun _ => .ok ()
  checkInherents := fun _ _ _ _ => .ok ⟨true, []⟩
  tryHandleError := fun _ _ _ => none
  identifierText := fun _ => ""

/-- The params under which a block of the network is imported. -/
def sampleImported (header : Header ℕ) : BlockImportParams ℕ Unit :=
  { (BlockImportParams.new .networkBroadcast header : BlockImportParams ℕ Unit) with
    body := some () }

theorem manual_seal_block_accepted_sample :
    ∃ params', appendBlockImport (fun _ => 0) sampleProducer sampleParams = .ok params' ∧
      (∃ r', executeInherents sampleSource (fun _ => 0)
        (fun _ _ signature => signature = Vector.replicate 64 0) params'.postHeader (.lit 5)
          sampleRuntime = (.ok (), r')) ∧
      ∃ verified, verifyBlock (fun _ => 0) (fun _ _ signature => signature = Vector.replicate 64 0)
        sampleInherents (sampleImported params'.postHeader) = .ok verified ∧
          verified.header = sampleParams.header := by
  obtain ⟨params', hp⟩ : ∃ params', appendBlockImport (fun _ => 0) sampleProducer sampleParams
    = .ok params' := ⟨_, rfl⟩
  have hdigest : createDigest (fun _ => 0) sampleClient (.ok sampleKeys) (fun _ _ => []) misleading
      (.ok (some (.lit 5))) = .ok [.nimbusPreDigest (sampleId 1)] := by decide +kernel
  have hnext : IsNext (fun _ => 0) misleading sampleParams.header := ⟨rfl, rfl⟩
  have hkeep : [.nimbusPreDigest (sampleId 1)] <+: sampleParams.header.digest :=
    List.prefix_append _ _
  obtain ⟨hexec, _, -, -, -, -, hverify⟩ :=
    manual_seal_block_accepted sampleProducer_honest.signsValid
      (sampleProducer_honest.asksRuntime misleading) hdigest hnext hkeep rfl hp
  exact ⟨params', hp, hexec, _, hverify sampleInherents _ rfl rfl rfl fun _ _ => rfl, rfl⟩

end Blocks

end Moonkit
