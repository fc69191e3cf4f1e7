import Moonkit.Base.LastWrite
import Moonkit.Proofs.Prediction

/-!
# The keys that may author

The account set is written at genesis alone: every account of an association is stored, and a key
belongs to the account of its last association. So in every reachable state and for every slot the
keys that may author are those of as many accounts as the count of the filter says, and there is one
wherever every account has kept a key.
-/

namespace Moonkit

open LastWrite (insertAll lastBy)

namespace AccountSet

variable {AccountId : Type}

theorem build_mapping : ∀ (mapping : List (AccountId × NimbusId)) (s : State AccountId),
    (build mapping s).mapping = insertAll Prod.snd Prod.fst mapping s.mapping
  | [], _ => rfl
  | association :: mapping, s => build_mapping mapping (s.associate association)

theorem build_storedAccounts : ∀ (mapping : List (AccountId × NimbusId)) (s : State AccountId),
    (build mapping s).storedAccounts = s.storedAccounts ++ mapping.map Prod.fst
  | [], s => (List.append_nil _).symm
  | association :: mapping, s => by
    show (build mapping (s.associate association)).storedAccounts = _
    rw [build_storedAccounts mapping, State.associate, List.append_assoc, List.map_cons,
      List.singleton_append]

/-- The key belongs to the account: no later association takes it away. -/
def Owns (mapping : List (AccountId × NimbusId)) (account : AccountId) (id : NimbusId) : Prop :=
  lastBy Prod.snd id mapping = some (account, id)

theorem lookupAccount_build {mapping : List (AccountId × NimbusId)} {id : NimbusId}
    {account : AccountId} :
    lookupAccount (build mapping .empty) id = some account ↔ Owns mapping account id := by
  unfold lookupAccount Owns
  rw [build_mapping, LastWrite.lookup_insertAll]
  rcases h : lastBy Prod.snd id mapping with _ | ⟨account', id'⟩
  · simp [State.empty]
  · obtain rfl : id' = id := LastWrite.key_of_lastBy h
    simp

end AccountSet

namespace Template

variable {Hash AccountId Material : Type} {source : RandomnessSource Hash Material}
  {hash : Header Hash → Hash} {verify : NimbusId → Hash → NimbusSignature → Bool}
  [DecidableEq AccountId] {r : Runtime Hash AccountId Material}
  {mapping : List (AccountId × NimbusId)}

/-- What every run keeps: the account set of the genesis, a count that is not zero, and no fake
authors. -/
structure Sound (mapping : List (AccountId × NimbusId)) (source : RandomnessSource Hash Material)
    (r : Runtime Hash AccountId Material) : Prop where
  accountSet : r.accountSet = AccountSet.build mapping .empty
  countNonZero : AuthorSlotFilter.CountNonZero (r.filter source)
  isFakeAuthor : r.isFakeAuthor = false

omit [DecidableEq AccountId] in
theorem Sound.of_keeps {x : RuntimeCall Hash AccountId Material Unit} (hr : Sound mapping source r)
    (hx : Call.Keeps (fun r : Runtime Hash AccountId Material =>
      (r.accountSet, r.eligibleCount, r.isFakeAuthor)) x) : Sound mapping source (x r).2 := by
  obtain ⟨hset, hrest⟩ := Prod.mk.inj (hx r)
  obtain ⟨hcount, hfake⟩ := Prod.mk.inj hrest
  refine ⟨hset.trans hr.accountSet, ?_, hfake.trans hr.isFakeAuthor⟩
  have hnonzero := hr.countNonZero
  unfold AuthorSlotFilter.CountNonZero AuthorSlotFilter.State.getEligibleCount Runtime.filter at *
  rwa [hcount]

theorem keeps_inAuthorInherent (x : AuthorInherent.PalletCall AccountId Unit) :
    Call.Keeps (fun r : Runtime Hash AccountId Material =>
      (r.accountSet, r.eligibleCount, r.isFakeAuthor)) (inAuthorInherent source x) :=
  .handle (.on _ fun _ _ => rfl) fun _ _ => rfl

omit [DecidableEq AccountId] in
theorem inAuthorFilter_snd (x : AuthorSlotFilter.PalletCall AccountId Unit) :
    (inAuthorFilter source x r).2 = r.setFilter (x (r.filter source)).2 := by
  unfold inAuthorFilter Call.handle Call.on
  rcases x (r.filter source) with ⟨a | e | m, s⟩ <;> rfl

omit [DecidableEq AccountId] in
theorem setEligible_isFakeAuthor (origin : RawOrigin AccountId) (new : List UInt8)
    (s : AuthorSlotFilter.State AccountId) :
    (AuthorSlotFilter.Op.run (.setEligible origin new) s).2.isFakeAuthor = s.isFakeAuthor := by
  simp only [AuthorSlotFilter.Op.run]
  rcases AuthorSlotFilter.NonZeroU32.decode new with e | n
  · rfl
  · rcases origin with _ | who | _ <;> rfl

theorem Sound.step {op : Op Hash AccountId} (hr : Sound mapping source r) :
    Sound mapping source (op.run source hash verify r).2 := by
  cases op with
  | initializeBlock header =>
    exact hr.of_keeps (.bind (.lift _) fun u => .bind (.modify fun _ => rfl) fun _ =>
      .bind (keeps_inAuthorInherent _) fun _ _ => rfl)
  | setValidationData n => exact hr.of_keeps (.modify fun _ => rfl)
  | kickOffAuthorshipValidation origin => exact hr.of_keeps (keeps_inAuthorInherent _)
  | setEligible origin new =>
    show Sound mapping source (inAuthorFilter source _ r).2
    rw [inAuthorFilter_snd]
    refine ⟨hr.accountSet, ?_, ?_⟩
    · exact AuthorSlotFilter.countNonZero_step hr.countNonZero
    · exact (setEligible_isFakeAuthor origin new _).trans hr.isFakeAuthor
  | finalizeBlock => exact hr.of_keeps (keeps_inAuthorInherent _)

theorem sound_of_run {h : List (RunEvent Hash AccountId Material)}
    (hr : Run source hash verify mapping h r) : Sound mapping source r := by
  refine hr.invariant (fun _ r => Sound mapping source r) (fun r hg => ?_)
    fun _ _ _ _ hi _ => hi.step
  obtain ⟨n, hn, hcount⟩ := hg.eligibleCount
  refine ⟨hg.accountSet, ?_, hg.isFakeAuthor⟩
  unfold AuthorSlotFilter.CountNonZero AuthorSlotFilter.State.getEligibleCount Runtime.filter
  rw [hcount, Option.getD_some]
  exact AuthorSlotFilter.configured_ne_zero hn

/-- **Keys that may author.** In every state of a run and for every parent and slot, the prediction
says yes for exactly the keys of the accounts that the filter draws from those of the genesis in the
block to come: as many as its count says, or all where there are fewer. If every account has kept a
key, some key may author. -/
theorem eligible_keys {h : List (RunEvent Hash AccountId Material)}
    (hr : Run source hash verify mapping h r) (parent : Header Hash) (slot : U32) :
    ∃ eligible ineligible : List AccountId,
      AuthorSlotFilter.computePseudoRandomSubset
        ((initializeSystem source (parent.number + 1) (hash parent) parent.digest r).filter source)
        (mapping.map Prod.fst) slot = .ok (eligible, ineligible) ∧
      eligible.Subperm (mapping.map Prod.fst) ∧
      eligible.length = min (r.filter source).getEligibleCount.get.val mapping.length ∧
      (∀ id, nimbusApi source hash r id slot parent = true ↔
        ∃ account ∈ eligible, AccountSet.Owns mapping account id) ∧
      (mapping ≠ [] → (∀ p ∈ mapping, ∃ id, AccountSet.Owns mapping p.1 id) →
        ∃ id, nimbusApi source hash r id slot parent = true) := by
  have hsound := sound_of_run hr
  set r' := initializeSystem source (parent.number + 1) (hash parent) parent.digest r with hr'
  have hactive : (r'.filter source).potentialAuthors = mapping.map Prod.fst := by
    show r.accountSet.storedAccounts = _
    rw [hsound.accountSet, AccountSet.build_storedAccounts]
    rfl
  obtain ⟨eligible, ineligible, hsubset, hperm, hlength⟩ :=
    AuthorSlotFilter.computePseudoRandomSubset_ok (r'.filter source)
      (r'.filter source).potentialAuthors slot
  have hcan (account : AccountId) : (r'.env source).canAuthor account slot = true ↔
      account ∈ eligible := by
    show decide (AuthorSlotFilter.canAuthor (r'.filter source) account slot = .ok true) = true ↔ _
    rw [AuthorSlotFilter.canAuthor_eq hsound.isFakeAuthor hsubset]
    simp
  have hiff (id : NimbusId) : nimbusApi source hash r id slot parent = true ↔
      ∃ account ∈ eligible, AccountSet.Owns mapping account id := by
    rw [nimbusApi, ← hr', canAuthor_iff]
    simp only [hcan]
    constructor
    · rintro ⟨account, hl, he⟩
      refine ⟨account, he, ?_⟩
      rw [← AccountSet.lookupAccount_build, ← hsound.accountSet]
      exact hl
    · rintro ⟨account, he, ho⟩
      rw [← AccountSet.lookupAccount_build, ← hsound.accountSet] at ho
      exact ⟨account, ho, he⟩
  rw [hactive] at hsubset hperm hlength
  rw [List.length_map] at hlength
  have hsub : eligible.Subperm (mapping.map Prod.fst) :=
    (List.sublist_append_left eligible ineligible).subperm.trans hperm.subperm
  refine ⟨eligible, ineligible, hsubset, hsub, hlength, hiff, fun hne hown => ?_⟩
  have hcount : 0 < (r.filter source).getEligibleCount.get.val :=
    Nat.pos_of_ne_zero fun hzero => hsound.countNonZero (Uint.ext_val hzero)
  have hpos : 0 < eligible.length := by
    rw [hlength]
    exact lt_min hcount (List.length_pos_iff.2 hne)
  obtain ⟨account, he⟩ := List.exists_mem_of_length_pos hpos
  obtain ⟨p, hp, rfl⟩ := List.mem_map.1 (hsub.subset he)
  obtain ⟨id, ho⟩ := hown p hp
  exact ⟨id, (hiff id).2 ⟨p.1, he, ho⟩⟩

theorem eligible_keys_sampled :
    ∃ id, nimbusApi sampleSource (fun _ => 0)
      (sampleChain.replay [] sampleRuntime sampleBlock).2 id (.lit 6) AuthorInherent.sampleHeader
        = true := by
  obtain ⟨_, _, -, -, -, -, hsome⟩ :=
    eligible_keys sampleChain_run AuthorInherent.sampleHeader (.lit 6)
  refine hsome (by decide) fun p hp => ?_
  rcases List.mem_cons.1 hp with rfl | hp
  · exact ⟨sampleId 1, rfl⟩
  · obtain rfl := List.mem_singleton.1 hp
    exact ⟨sampleId 2, rfl⟩

end Template

end Moonkit
