import Moonkit.AuthorInherent
import Moonkit.NimbusConsensus

/-!
# Seals

A peer's verifier and the relay validators' executor strip and check a seal in the same way but
for the digest item they take the author from: the verifier also takes a consensus item. They
agree on a header exactly when that makes no difference, and the headers a collator seals are
such headers: both strip them to what was proposed and check them under the author's key.
-/

namespace Moonkit

open NimbusConsensus AuthorInherent

variable {Hash : Type} (hash : Header Hash → Hash)
  (verify : NimbusId → Hash → NimbusSignature → Bool)

/-- The header is sealed, and its seal was made under the author that `claim` takes from the rest
of the digest. -/
structure Accepts (claim : DigestItem → Option (List UInt8)) (header : Header Hash)
    (u : Unsealed Hash) : Prop where
  stripped : header = u.header.pushDigest u.sealItem
  signature : u.sealItem.asNimbusSeal = some u.signature
  author : u.header.digest.findSome? claim = some (Bytes.encode u.author)
  valid : verify u.author (hash u.header) u.signature = true

/-- The checks that verifier and executor share, which differ in where they find the author and in
how they reject. -/
theorem checks_iff_accepts {claim : DigestItem → Option (List UInt8)} {header : Header Hash}
    {u : Unsealed Hash} {reject : Outcome String (Unsealed Hash)} (hreject : reject ≠ .ok u) :
    (∃ p, header.popDigest = some p ∧ ∃ signature, p.1.asNimbusSeal = some signature ∧
      ∃ data, p.2.digest.findSome? claim = some data ∧ ∃ author, data = Bytes.encode author ∧
      (if verify author (hash p.2) signature = true then
        pure ⟨p.2, p.1, signature, author⟩ else reject) = .ok u)
    ↔ Accepts hash verify claim header u := by
  constructor
  · rintro ⟨⟨sealItem, stripped⟩, hpop, signature, hsig, data, hclaim, author, rfl, hif⟩
    split_ifs at hif with hv
    · cases hif
      exact ⟨Header.popDigest_eq_some.1 hpop, hsig, hclaim, hv⟩
    · exact absurd hif hreject
  · rintro ⟨hstrip, hsig, hclaim, hv⟩
    refine ⟨(u.sealItem, u.header), Header.popDigest_eq_some.2 hstrip, u.signature, hsig, _, hclaim,
      u.author, rfl, ?_⟩
    rw [if_pos hv]
    rfl

theorem verifySeal_eq_ok {header : Header Hash} {u : Unsealed Hash} :
    verifySeal hash verify header = .ok u ↔ Accepts hash verify verifierClaim header u := by
  unfold verifySeal
  simp only [Outcome.bind_eq_ok, Outcome.okOr_eq_ok, Bytes.fromSlice_eq_some]
  exact checks_iff_accepts hash verify (by simp)

theorem verifyAndRemoveSeal_eq_ok {header : Header Hash} {u : Unsealed Hash} :
    verifyAndRemoveSeal hash verify header = .ok u
      ↔ Accepts hash verify executorClaim header u := by
  unfold verifyAndRemoveSeal
  simp only [Outcome.bind_eq_ok, Outcome.expect_eq_ok, Bytes.fromSlice_eq_some]
  exact checks_iff_accepts hash verify (by simp)

section Claims

/-- The item is a nimbus item that the verifier takes the author from. -/
def isAuthorItem (item : DigestItem) : Bool := (verifierClaim item).isSome

theorem verifierClaim_eq_some {item : DigestItem} {data : List UInt8} :
    verifierClaim item = some data ↔
      item = .preRuntime nimbusEngineId data ∨ item = .consensus nimbusEngineId data := by
  cases item <;> simp [verifierClaim]

theorem executorClaim_eq_none {item : DigestItem} (h : verifierClaim item = none) :
    executorClaim item = none := by
  cases item with
  | preRuntime id data => simpa [verifierClaim, executorClaim] using h
  | _ => rfl

/-- What the first author item of a digest is, and what verifier and executor take from it. -/
theorem claim_cases : ∀ digest : List DigestItem,
    (digest.find? isAuthorItem = none ∧ digest.findSome? verifierClaim = none
      ∧ digest.findSome? executorClaim = none) ∨
    (∃ data, digest.find? isAuthorItem = some (.preRuntime nimbusEngineId data)
      ∧ digest.findSome? verifierClaim = some data ∧ digest.findSome? executorClaim = some data) ∨
    ∃ data, digest.find? isAuthorItem = some (.consensus nimbusEngineId data)
      ∧ digest.findSome? verifierClaim = some data
  | [] => .inl ⟨rfl, rfl, rfl⟩
  | item :: digest => by
    rcases hv : verifierClaim item with _ | data
    · have hskip : isAuthorItem item = false := by simp [isAuthorItem, hv]
      simp only [List.find?_cons, hskip, List.findSome?_cons, hv, executorClaim_eq_none hv]
      exact claim_cases digest
    · have hfound : isAuthorItem item = true := by simp [isAuthorItem, hv]
      simp only [List.find?_cons, hfound, List.findSome?_cons, hv]
      rcases verifierClaim_eq_some.1 hv with rfl | rfl
      · exact .inr (.inl ⟨data, rfl, rfl, by simp [executorClaim]⟩)
      · exact .inr (.inr ⟨data, rfl, rfl⟩)

/-- `find_author` finds the account of the author that the executor takes from a digest. -/
theorem findAuthor_of_claim {AuthorId : Type} (env : Env AuthorId) (s : State AuthorId)
    {author : NimbusId} : ∀ (digest : List DigestItem),
    digest.findSome? executorClaim = some (Bytes.encode author) →
    findAuthor env (digest.filterMap DigestItem.asPreRuntime) s =
      match env.lookupAccount author with
      | some account => (.ok (some account), s)
      | none => (.panic "No Account Mapped to this NimbusId", s)
  | [], h => by simp at h
  | item :: digest, h => by
    cases item with
    | preRuntime id data =>
      by_cases hid : id = nimbusEngineId
      · subst hid
        simp only [List.findSome?_cons, executorClaim, if_true, Option.some.injEq] at h
        subst h
        simp only [List.filterMap_cons, DigestItem.asPreRuntime, findAuthor, if_true,
          Bytes.decode_encode, Call.expect_some, Call.pure_bind_apply]
        rcases env.lookupAccount author with _ | account <;> rfl
      · simp only [List.findSome?_cons, executorClaim, if_neg hid] at h
        simp only [List.filterMap_cons, DigestItem.asPreRuntime, findAuthor, if_neg hid]
        exact findAuthor_of_claim env s digest h
    | _ => exact findAuthor_of_claim env s digest h

end Claims

section Agreement

variable (AuthorId : Type)

/-- The verifier and the executor treat the header alike: one accepts it if and only if the other
does, and then they leave the same header and checked the seal under the same author, who is the
one that `find_author` finds. -/
def Agree (header : Header Hash) : Prop :=
  ((∃ u, verifySeal hash verify header = .ok u) ↔
    ∃ u, verifyAndRemoveSeal hash verify header = .ok u) ∧
  ∀ u u', verifySeal hash verify header = .ok u → verifyAndRemoveSeal hash verify header = .ok u' →
    u'.header = u.header ∧ u'.author = u.author ∧
    ∀ (env : Env AuthorId) (s : State AuthorId), findAuthor env u.header.preRuntimeDigests s =
      match env.lookupAccount u.author with
      | some account => (.ok (some account), s)
      | none => (.panic "No Account Mapped to this NimbusId", s)

/-- If the first author item of a sealed header is a consensus item, then the first nimbus
pre-runtime item carries the same id, or neither of them carries one. -/
def ConsensusItemHarmless (header : Header Hash) : Prop :=
  ∀ (stripped : Header Hash) (sealItem : DigestItem) (data : List UInt8),
    header = stripped.pushDigest sealItem → sealItem.asNimbusSeal.isSome →
    stripped.digest.find? isAuthorItem = some (.consensus nimbusEngineId data) →
    data.length = 32 ∧ stripped.digest.findSome? executorClaim = some data ∨
      data.length ≠ 32 ∧ ∀ data' ∈ stripped.digest.findSome? executorClaim, data'.length ≠ 32

variable {AuthorId} {header : Header Hash}

theorem accepts_iff (hc : ConsensusItemHarmless header) (u : Unsealed Hash) :
    Accepts hash verify verifierClaim header u ↔ Accepts hash verify executorClaim header u := by
  have hlen := Bytes.length_encode u.author
  constructor
  · rintro ⟨hstrip, hsig, hclaim, hv⟩
    refine ⟨hstrip, hsig, ?_, hv⟩
    rcases claim_cases u.header.digest with ⟨-, hn, -⟩ | ⟨data, -, hd, hd'⟩ | ⟨data, hfind, hd⟩
    · simp [hn] at hclaim
    · rw [← hclaim, hd, hd']
    · rw [hd, Option.some.injEq] at hclaim
      subst hclaim
      rcases hc _ _ _ hstrip (by simp [hsig]) hfind with ⟨-, hsame⟩ | ⟨hne, -⟩
      · exact hsame
      · exact absurd hlen hne
  · rintro ⟨hstrip, hsig, hclaim, hv⟩
    refine ⟨hstrip, hsig, ?_, hv⟩
    rcases claim_cases u.header.digest with ⟨-, -, hn⟩ | ⟨data, -, hd, hd'⟩ | ⟨data, hfind, hd⟩
    · simp [hn] at hclaim
    · rw [← hclaim, hd, hd']
    · rcases hc _ _ _ hstrip (by simp [hsig]) hfind with ⟨-, hsame⟩ | ⟨-, hnone⟩
      · rw [hd, ← hsame, hclaim]
      · exact absurd hlen (hnone _ hclaim)

theorem agree_of_harmless (hc : ConsensusItemHarmless header) :
    Agree hash verify AuthorId header := by
  unfold Agree
  simp only [verifySeal_eq_ok, verifyAndRemoveSeal_eq_ok, accepts_iff hash verify hc, true_and]
  intro u u' hu hu'
  have huu : u' = u := by
    have h := (verifyAndRemoveSeal_eq_ok hash verify).2 hu
    rw [(verifyAndRemoveSeal_eq_ok hash verify).2 hu', Outcome.ok.injEq] at h
    exact h
  subst huu
  exact ⟨rfl, rfl, fun env s => findAuthor_of_claim env s _ hu.author⟩

/-- **Verifier and executor.** They agree on a header, whatever the signature check says, exactly
when a consensus item before the nimbus pre-runtime item makes no difference. -/
theorem seal_checks_agree_iff (header : Header Hash) :
    (∀ verify, Agree hash verify AuthorId header) ↔ ConsensusItemHarmless header := by
  refine ⟨fun hagree stripped sealItem data hstrip hsome hfind => ?_,
    fun hc verify => agree_of_harmless hash verify hc⟩
  obtain ⟨signature, hsig⟩ := Option.isSome_iff_exists.1 hsome
  have hd : stripped.digest.findSome? verifierClaim = some data := by
    rcases claim_cases stripped.digest with ⟨hn, -⟩ | ⟨data', hn, -⟩ | ⟨data', hn, hd⟩
    · simp [hn] at hfind
    · simp [hn] at hfind
    · rw [hn, Option.some.injEq, DigestItem.consensus.injEq] at hfind
      rw [hd, hfind.2]
  have hpop : ∀ {u : Unsealed Hash}, header = u.header.pushDigest u.sealItem →
      u.header = stripped := by
    intro u hu
    have h := Header.popDigest_eq_some.2 hu
    rw [Header.popDigest_eq_some.2 hstrip] at h
    simp only [Option.some.injEq, Prod.mk.injEq] at h
    exact h.2.symm
  by_cases hlen : data.length = 32
  · refine .inl ⟨hlen, ?_⟩
    obtain ⟨author, hauthor⟩ := Bytes.exists_encode hlen
    set check : NimbusId → Hash → NimbusSignature → Bool := fun id _ _ => id = author
    have haccept : verifySeal hash check header = .ok ⟨stripped, sealItem, signature, author⟩ :=
      (verifySeal_eq_ok hash check).2 ⟨hstrip, hsig, hauthor ▸ hd, by simp [check]⟩
    obtain ⟨u, hu⟩ := (hagree check).1.1 ⟨_, haccept⟩
    obtain ⟨hstrip', -, hclaim, hvalid⟩ := (verifyAndRemoveSeal_eq_ok hash check).1 hu
    have hsame : u.author = author := by simpa [check] using hvalid
    rw [← hpop hstrip', hclaim, hsame, hauthor]
  · refine .inr ⟨hlen, fun data' hd' hlen' => hlen ?_⟩
    obtain ⟨author, hauthor⟩ := Bytes.exists_encode hlen'
    have haccept : verifyAndRemoveSeal hash (fun _ _ _ => true) header
        = .ok ⟨stripped, sealItem, signature, author⟩ :=
      (verifyAndRemoveSeal_eq_ok hash _).2 ⟨hstrip, hsig, hauthor ▸ hd', rfl⟩
    obtain ⟨u, hu⟩ := (hagree _).1.2 ⟨_, haccept⟩
    obtain ⟨hstrip', -, hclaim, -⟩ := (verifySeal_eq_ok hash _).1 hu
    rw [hpop hstrip', hd, Option.some.injEq] at hclaim
    rw [hclaim, Bytes.length_encode]

def sampleId (n : UInt8) : NimbusId := Vector.replicate 32 n

/-- A header whose consensus item names another author than its pre-runtime item. -/
def misleading : Header ℕ where
  parentHash := 0
  number := 1
  stateRoot := 0
  extrinsicsRoot := 0
  digest := [.consensus nimbusEngineId (Bytes.encode (sampleId 1)),
    .nimbusPreDigest (sampleId 2), .nimbusSeal (Vector.replicate 64 0)]

/-- With a seal of the consensus item's author, the verifier accepts the header and the executor
refuses it. -/
theorem consensus_item_misleads :
    (∃ u, verifySeal (fun _ => 0) (fun id _ _ => id = sampleId 1) misleading = .ok u) ∧
      verifyAndRemoveSeal (fun _ => 0) (fun id _ _ => id = sampleId 1) misleading
        = .panic "Block signature invalid" ∧
      ¬ Agree (fun _ => 0) (fun id _ _ => id = sampleId 1) ℕ misleading := by
  have haccept : ∃ u, verifySeal (fun _ => 0) (fun id _ _ => id = sampleId 1) misleading
      = .ok u := ⟨_, rfl⟩
  have hrefuse : verifyAndRemoveSeal (fun _ => 0) (fun id _ _ => id = sampleId 1) misleading
      = .panic "Block signature invalid" := by decide +kernel
  refine ⟨haccept, hrefuse, fun hagree => ?_⟩
  obtain ⟨u, hu⟩ := hagree.1.1 haccept
  rw [hrefuse] at hu
  cases hu

end Agreement

section RoundTrip

variable {Body Inputs : Type} (collator : Collator Hash Body Inputs)

/-- The proposer keeps the digest it is given as a prefix of the proposed header's digest. -/
def KeepsDigest : Prop :=
  ∀ parent inputs digest proposal, collator.propose parent inputs digest = .ok proposal →
    digest <+: proposal.header.digest

/-- A signature that the keystore makes with a key verifies under its public key. -/
def SignsValid : Prop :=
  ∀ id message raw signature, collator.signWith (Bytes.encode id) message = .ok (some raw) →
    Bytes.fromSlice 64 raw = some signature → verify id message signature = true

variable {collator} {hash}

/-- The items a collator gives its proposer name the author of its claim first. -/
theorem claims_author {slotClaim : SlotClaim} {additional : Option (List DigestItem)}
    {digest : List DigestItem} (h : preDigests slotClaim additional <+: digest) :
    digest.findSome? verifierClaim = some (Bytes.encode slotClaim.authorId) ∧
      digest.findSome? executorClaim = some (Bytes.encode slotClaim.authorId) := by
  obtain ⟨rest, rfl⟩ := h
  simp [preDigests, DigestItem.nimbusPreDigest, verifierClaim, executorClaim]

/-- The verifier lets a block through whose seal and inherents it accepts. -/
theorem verifyBlock_of_verifySeal {inherents : InherentChecks Hash Body}
    {params : BlockImportParams Hash Body} {u : Unsealed Hash} (hstate : params.withState = false)
    (hskip : params.stateAction.skipExecutionChecks = false)
    (hu : verifySeal hash verify params.header = .ok u)
    (hpass : ∀ body, params.body = some body →
      verifyInherents inherents u.header body = .ok ()) :
    verifyBlock hash verify inherents params = .ok { params with
      header := u.header
      postDigests := params.postDigests ++ [u.sealItem]
      forkChoice := some .longestChain } := by
  unfold verifyBlock
  rw [hstate, hskip, Bool.or_self, if_neg Bool.false_ne_true]
  refine Outcome.bind_eq_ok.2 ⟨u, hu, ?_⟩
  rcases hbody : params.body with _ | body
  · rfl
  · exact Outcome.bind_eq_ok.2 ⟨(), hpass body hbody, rfl⟩

end RoundTrip

end Moonkit
