import Moonkit.Proofs.Authorship
import Moonkit.Proofs.EligibleAuthors
import Moonkit.TemplateRuntime

/-!
# The prediction of the runtime

Whether a key may author is read off the account set, the count of the filter and the randomness of
the block. The prediction initializes a block on the state of the parent, which gives the same
randomness, and inherents change nothing else of these. So a block gets past its inherents exactly
if the prediction, asked on the state of its parent, says so for the key that sealed it.
-/

namespace Moonkit

namespace AuthorSlotFilter

variable {AccountId : Type} [DecidableEq AccountId]

theorem canAuthor_congr {s s' : State AccountId} (hcount : s.eligibleCount = s'.eligibleCount)
    (hfake : s.isFakeAuthor = s'.isFakeAuthor) (hactive : s.potentialAuthors = s'.potentialAuthors)
    (hrandom : s.random = s'.random) (author : AccountId) (slot : U32) :
    canAuthor s author slot = canAuthor s' author slot := by
  obtain ⟨count, ratio, fake, events, active, random⟩ := s
  obtain ⟨count', ratio', fake', events', active', random'⟩ := s'
  simp only at hcount hfake hactive hrandom
  subst hcount hfake hactive hrandom
  rfl

end AuthorSlotFilter

namespace Template

open AuthorInherent (verifyAndRemoveSeal)

variable {Hash AccountId Material : Type} {source : RandomnessSource Hash Material}
  {hash : Header Hash → Hash} {verify : NimbusId → Hash → NimbusSignature → Bool}
  [DecidableEq AccountId] {r r' : Runtime Hash AccountId Material}

section Calls

theorem inAuthorInherent_eq_ok {α : Type} {x : AuthorInherent.PalletCall AccountId α} {a : α} :
    inAuthorInherent source x r = (.ok a, r') ↔
      ∃ s, x (r.authorInherent source) = (.ok a, s) ∧ r.setAuthorInherent s = r' := by
  unfold inAuthorInherent
  rw [Call.handle_eq_ok (by simp [Call.err]), Call.on_eq_ok]

theorem inAuthorInherent_panic {α : Type} {x : AuthorInherent.PalletCall AccountId α} {m : String}
    {s : AuthorInherent.State AccountId} (h : x (r.authorInherent source) = (.panic m, s)) :
    inAuthorInherent source x r = (.panic m, r.setAuthorInherent s) := by
  unfold inAuthorInherent Call.handle
  rw [Call.on_apply h]

/-- What initializing a block with this stripped header leaves. -/
def initialized (source : RandomnessSource Hash Material) (u : Unsealed Hash) (account : AccountId)
    (r : Runtime Hash AccountId Material) : Runtime Hash AccountId Material :=
  { initializeSystem source u.header.number u.header.parentHash
      (u.header.digest.filter fun item => item.asPreRuntime.isSome) r with author := some account }

omit [DecidableEq AccountId] in
theorem findAuthor_initialized {header : Header Hash} {u : Unsealed Hash}
    (hu : verifyAndRemoveSeal hash verify header = .ok u) (s : AuthorInherent.State AccountId)
    (hs : s.digest = u.header.digest.filter fun item => item.asPreRuntime.isSome) :
    (∀ account, s.env.lookupAccount u.author = some account →
      AuthorInherent.onInitialize s = (.ok (), { s with author := some account })) ∧
    (s.env.lookupAccount u.author = none →
      AuthorInherent.onInitialize s = (.panic "No Account Mapped to this NimbusId", s)) := by
  have hfind := findAuthor_of_claim s.env s _ ((verifyAndRemoveSeal_eq_ok hash verify).1 hu).author
  rw [← AuthorInherent.filterMap_filter_asPreRuntime, ← hs] at hfind
  unfold AuthorInherent.onInitialize
  rw [Call.get_bind]
  constructor
  · intro account hl
    rw [hl] at hfind
    rw [Call.bind_ok hfind]
    rfl
  · intro hl
    rw [hl] at hfind
    rw [Call.bind_panic hfind]

variable (source hash verify r) in
theorem initializeBlock_cases (header : Header Hash) :
    (∃ m s, initializeBlock source hash verify header r = (.panic m, s)) ∨
      ∃ u account, verifyAndRemoveSeal hash verify header = .ok u ∧
        AccountSet.lookupAccount r.accountSet u.author = some account ∧
        initializeBlock source hash verify header r = (.ok (), initialized source u account r) := by
  unfold initializeBlock
  rcases hu : verifyAndRemoveSeal hash verify header with u | e | m
  · obtain ⟨hsome, hnone⟩ := findAuthor_initialized hu ((initializeSystem source u.header.number
      u.header.parentHash (u.header.digest.filter fun item => item.asPreRuntime.isSome)
      r).authorInherent source) rfl
    rcases hl : AccountSet.lookupAccount r.accountSet u.author with _ | account
    · have hpanic := Call.bind_panic (inAuthorInherent_panic (hnone hl))
        (f := fun _ => inAuthorFilter source (AuthorSlotFilter.onInitialize false))
      exact .inl ⟨_, _, hpanic⟩
    · refine .inr ⟨u, account, rfl, hl, ?_⟩
      have hok := inAuthorInherent_eq_ok.2 ⟨_, hsome account hl, rfl⟩
      exact Call.bind_ok hok
  · exact .inl ⟨_, r, rfl⟩
  · exact .inl ⟨_, r, rfl⟩

theorem initializeBlock_eq_ok {header : Header Hash} :
    initializeBlock source hash verify header r = (.ok (), r') ↔
      ∃ u account, verifyAndRemoveSeal hash verify header = .ok u ∧
        AccountSet.lookupAccount r.accountSet u.author = some account ∧
        r' = initialized source u account r := by
  constructor
  · intro h
    rcases initializeBlock_cases source hash verify r header with ⟨m, s, hp⟩ |
      ⟨u, account, hu, hl, hok⟩
    · rw [hp] at h
      cases h
    · rw [hok] at h
      cases h
      exact ⟨u, account, hu, hl, rfl⟩
  · rintro ⟨u, account, hu, hl, rfl⟩
    obtain ⟨hsome, -⟩ := findAuthor_initialized hu ((initializeSystem source u.header.number
      u.header.parentHash (u.header.digest.filter fun item => item.asPreRuntime.isSome)
      r).authorInherent source) rfl
    unfold initializeBlock
    rw [hu]
    have hok := inAuthorInherent_eq_ok.2 ⟨_, hsome account hl, rfl⟩
    exact Call.bind_ok hok

theorem kickOff_eq_ok {origin : RawOrigin AccountId} :
    inAuthorInherent source (AuthorInherent.kickOffAuthorshipValidation origin) r = (.ok (), r') ↔
      origin = .none ∧ ∃ account, r.author = some account ∧
        (r.env source).canAuthor account r.relayParentNumber = true ∧
        r' = { r with inherentIncluded := true } := by
  rw [inAuthorInherent_eq_ok]
  unfold AuthorInherent.kickOffAuthorshipValidation AuthorInherent.getAuthor
  simp only [Call.ensure_bind_eq_ok, Call.get_bind]
  simp only [Call.bind_eq_ok, Call.get_bind, Call.expect_eq_ok, Call.assert_eq_ok,
    Call.modify_apply]
  constructor
  · rintro ⟨s, ⟨ho, account, s₁, ⟨ha, rfl⟩, _, s₂, ⟨hc, rfl⟩, hs⟩, rfl⟩
    cases hs
    exact ⟨ho, account, ha, hc, rfl⟩
  · rintro ⟨ho, account, ha, hc, rfl⟩
    exact ⟨_, ⟨ho, account, _, ⟨ha, rfl⟩, (), _, ⟨hc, rfl⟩, rfl⟩, rfl⟩

end Calls

section Agreement

/-- What decides about authors is in `r'` as it is in `r` initialized for a block. -/
structure Prepares (source : RandomnessSource Hash Material) (header : Header Hash)
    (r r' : Runtime Hash AccountId Material) : Prop where
  accountSet : r'.accountSet = r.accountSet
  eligibleCount : r'.eligibleCount = r.eligibleCount
  isFakeAuthor : r'.isFakeAuthor = r.isFakeAuthor
  number : r'.system.number = header.number
  parentHash : r'.system.parentHash = header.parentHash
  material : r'.material = source.onInitialize header.number header.parentHash r.material

omit [DecidableEq AccountId] in
/-- What an operation leaves as it was stays prepared. -/
theorem Prepares.congr {header : Header Hash} {r'' : Runtime Hash AccountId Material}
    (hr : Prepares source header r r') (hset : r''.accountSet = r'.accountSet)
    (hcount : r''.eligibleCount = r'.eligibleCount) (hfake : r''.isFakeAuthor = r'.isFakeAuthor)
    (hsystem : r''.system = r'.system) (hmaterial : r''.material = r'.material) :
    Prepares source header r r'' := by
  obtain ⟨h₁, h₂, h₃, h₄, h₅, h₆⟩ := hr
  exact ⟨hset.trans h₁, hcount.trans h₂, hfake.trans h₃, hsystem ▸ h₄, hsystem ▸ h₅,
    hmaterial.trans h₆⟩

/-- The header is that of a block on this parent. -/
def IsNext (hash : Header Hash → Hash) (parent header : Header Hash) : Prop :=
  parent.number + 1 = header.number ∧ hash parent = header.parentHash

omit [DecidableEq AccountId] in
theorem canAuthor_iff {env : AuthorInherent.Env AccountId} {id : NimbusId} {slot : U32} :
    AuthorInherent.canAuthor env id slot = true ↔
      ∃ account, env.lookupAccount id = some account ∧ env.canAuthor account slot = true := by
  unfold AuthorInherent.canAuthor
  rcases env.lookupAccount id with _ | account <;> simp

theorem Prepares.nimbusApi_eq {parent header : Header Hash} (hr : Prepares source header r r')
    (hnext : IsNext hash parent header) (id : NimbusId) (slot : U32) :
    nimbusApi source hash r id slot parent = AuthorInherent.canAuthor (r'.env source) id slot := by
  obtain ⟨hnumber, hparent⟩ := hnext
  have hfilter (account : AccountId) :
      AuthorSlotFilter.canAuthor ((initializeSystem source (parent.number + 1) (hash parent)
        parent.digest r).filter source) account slot
      = AuthorSlotFilter.canAuthor (r'.filter source) account slot := by
    refine AuthorSlotFilter.canAuthor_congr hr.eligibleCount.symm hr.isFakeAuthor.symm ?_ ?_ _ _
    · exact congrArg AccountSet.State.storedAccounts hr.accountSet.symm
    · simp only [Runtime.filter, initializeSystem, hr.number, hr.parentHash, hr.material, hnumber,
        hparent]
  rw [Bool.eq_iff_iff, nimbusApi, canAuthor_iff, canAuthor_iff]
  simp only [Runtime.env, hfilter, hr.accountSet]
  rfl

omit [DecidableEq AccountId] in
theorem prepares_initialized {header : Header Hash} {u : Unsealed Hash}
    (hu : verifyAndRemoveSeal hash verify header = .ok u) (account : AccountId) :
    Prepares source header r (initialized source u account r) := by
  have hstripped := ((verifyAndRemoveSeal_eq_ok hash verify).1 hu).stripped
  have hnumber : u.header.number = header.number := by rw [hstripped]; rfl
  have hparent : u.header.parentHash = header.parentHash := by rw [hstripped]; rfl
  refine ⟨rfl, rfl, rfl, hnumber, hparent, ?_⟩
  simp only [initialized, initializeSystem, hnumber, hparent]

/-- On any state, a block on this parent gets past its inherents exactly if its seal is good and the
prediction, asked on that state, says so for the key that sealed it and the relay parent. -/
theorem inherents_accepted_iff {parent header : Header Hash} (hnext : IsNext hash parent header)
    (n : U32) :
    (∃ r', executeInherents source hash verify header n r = (.ok (), r')) ↔
      ∃ u, verifyAndRemoveSeal hash verify header = .ok u ∧
        nimbusApi source hash r u.author n parent = true := by
  have prepares {u : Unsealed Hash} (hu : verifyAndRemoveSeal hash verify header = .ok u)
      (account : AccountId) : Prepares source header r
        { initialized source u account r with relayParentNumber := n } :=
    (prepares_initialized hu account).congr rfl rfl rfl rfl rfl
  unfold executeInherents
  simp only [Call.bind_eq_ok]
  constructor
  · rintro ⟨r', _, r₁, hinit, _, r₂, hdata, hkick⟩
    obtain ⟨u, account, hu, hl, rfl⟩ := initializeBlock_eq_ok.1 hinit
    cases hdata
    obtain ⟨-, account', ha, hc, rfl⟩ := kickOff_eq_ok.1 hkick
    obtain rfl := Option.some.inj ha
    refine ⟨u, hu, ?_⟩
    rw [(prepares hu account).nimbusApi_eq hnext, canAuthor_iff]
    exact ⟨account, hl, hc⟩
  · rintro ⟨u, hu, hapi⟩
    obtain ⟨account, hl⟩ : ∃ account, AccountSet.lookupAccount r.accountSet u.author
        = some account := by
      obtain ⟨account, hl, -⟩ := canAuthor_iff.1 hapi
      exact ⟨account, hl⟩
    rw [(prepares hu account).nimbusApi_eq hnext, canAuthor_iff] at hapi
    obtain ⟨account', hl', hc⟩ := hapi
    obtain rfl := Option.some.inj (hl.symm.trans hl')
    exact ⟨_, (), _, initializeBlock_eq_ok.2 ⟨u, account, hu, hl, rfl⟩, (), _, rfl,
      kickOff_eq_ok.2 ⟨rfl, account, rfl, hc, rfl⟩⟩

end Agreement

section Blocks

variable {h : List (RunEvent Hash AccountId Material)}

omit [DecidableEq AccountId] in
theorem phase_eq_between : phase h = .between ↔ currentBlock h = [] := by
  rcases h with _ | ⟨⟨before, op, answer, after⟩, h⟩
  · simp [phase, currentBlock]
  · rcases op with header | n | (_ | who | _) | _ | _ <;> simp [phase, currentBlock]

/-- The prediction for this key, asked on the state on which the block began, for the relay parent
that the runtime has when it checks the author. -/
def Predicted (source : RandomnessSource Hash Material) (hash : Header Hash → Hash)
    (b k : RunEvent Hash AccountId Material) (id : NimbusId) : Prop :=
  ∀ header, b.op = .initializeBlock header → ∀ parent, IsNext hash parent header →
    nimbusApi source hash b.before id k.before.relayParentNumber parent = true

variable (source hash verify)

/-- The event begins a block that is sealed under `id`. -/
def SealedBy (b : RunEvent Hash AccountId Material) (id : NimbusId) : Prop :=
  ∃ header u, b.op = .initializeBlock header ∧ verifyAndRemoveSeal hash verify header = .ok u ∧
    u.author = id

/-- What a history says about the state it leads to. -/
structure InBlock (h : List (RunEvent Hash AccountId Material))
    (r : Runtime Hash AccountId Material) : Prop where
  closed : currentBlock h = [] → r.inherentIncluded = false
  included : r.inherentIncluded = true → ∃ k ∈ currentBlock h, Validates k
  opened : ∀ b, (currentBlock h).getLast? = some b → ∃ id account, SealedBy hash verify b id ∧
    AccountSet.lookupAccount b.before.accountSet id = some account ∧ r.author = some account ∧
    (∀ header, b.op = .initializeBlock header → phase h = .inherents →
      Prepares source header b.before r) ∧
    ∀ k ∈ currentBlock h, Validates k → Predicted source hash b k id

variable {source hash verify}

theorem kickOff_cases (origin : RawOrigin AccountId) (hc : (inAuthorInherent source
      (AuthorInherent.kickOffAuthorshipValidation origin) r).1.isPanic = false) :
    (origin = .none ∧ ∃ account, r.author = some account ∧
      (r.env source).canAuthor account r.relayParentNumber = true ∧
      inAuthorInherent source (AuthorInherent.kickOffAuthorshipValidation origin) r
        = (.ok (), { r with inherentIncluded := true })) ∨
    inAuthorInherent source (AuthorInherent.kickOffAuthorshipValidation origin) r
      = (.err (.authorInherent .badOrigin), r) := by
  rcases AuthorInherent.kickOff_cases origin (r.authorInherent source) with hk | ⟨m, s, hk⟩ |
    ⟨account, ha, hcan, hk⟩
  · right
    unfold inAuthorInherent Call.handle
    rw [Call.on_apply hk]
    rfl
  · exfalso
    unfold inAuthorInherent Call.handle at hc
    rw [Call.on_apply hk] at hc
    simp [Outcome.isPanic] at hc
  · left
    have hok := inAuthorInherent_eq_ok.2 ⟨_, hk, rfl⟩
    obtain ⟨ho, -⟩ := kickOff_eq_ok.1 hok
    exact ⟨ho, account, ha, hcan, hok⟩

/-- An operation inside of a block that leaves the author, and what decides about it where the
inherents go on, as they are. -/
theorem InBlock.within {e : RunEvent Hash AccountId Material}
    (hi : InBlock source hash verify h e.before)
    (hcur : currentBlock (e :: h) = e :: currentBlock h)
    (hne : currentBlock h ≠ []) (hauthor : e.after.author = e.before.author)
    (hphase : phase (e :: h) = .inherents → phase h = .inherents ∧ ∀ header b,
      Prepares source header b e.before → Prepares source header b e.after)
    (hincluded : e.after.inherentIncluded = true → e.before.inherentIncluded = true ∨ Validates e)
    (hvalidates : Validates e → phase h = .inherents ∧ ∃ account, e.before.author = some account ∧
      (e.before.env source).canAuthor account e.before.relayParentNumber = true) :
    InBlock source hash verify (e :: h) e.after := by
  refine ⟨by simp [hcur], fun hinc => ?_, fun b hb => ?_⟩
  · rw [hcur]
    rcases hincluded hinc with hbefore | hv
    · obtain ⟨k, hk, hvk⟩ := hi.included hbefore
      exact ⟨k, List.mem_cons_of_mem _ hk, hvk⟩
    · exact ⟨e, List.mem_cons_self, hv⟩
  · rw [hcur, List.getLast?_cons] at hb
    obtain ⟨b', hb'⟩ := Option.ne_none_iff_exists'.1 (mt List.getLast?_eq_none_iff.1 hne)
    rw [hb', Option.getD_some, Option.some.injEq] at hb
    subst hb
    obtain ⟨id, account, hseal, hl, ha, hprep, hpred⟩ := hi.opened b' hb'
    refine ⟨id, account, hseal, hl, hauthor.trans ha, fun header hop hph => ?_, fun k hk hv => ?_⟩
    · obtain ⟨hph, hkeep⟩ := hphase hph
      exact hkeep _ _ (hprep header hop hph)
    · rw [hcur] at hk
      rcases List.mem_cons.1 hk with rfl | hk
      · obtain ⟨hph, account', ha', hcan⟩ := hvalidates hv
        obtain rfl := Option.some.inj (ha.symm.trans ha')
        intro header hop parent hnext
        have hp := hprep header hop hph
        rw [hp.nimbusApi_eq hnext, canAuthor_iff]
        refine ⟨account, ?_, hcan⟩
        rw [← hl]
        exact congrArg (fun s => AccountSet.lookupAccount s id) hp.accountSet
      · exact hpred k hk hv

theorem InBlock.initializeBlock {header : Header Hash} (hi : InBlock source hash verify h r)
    (hc : Completes source hash verify r (.initializeBlock header : Op Hash AccountId))
    (ho : InOrder h (.initializeBlock header : Op Hash AccountId))
    (mapping : List (AccountId × NimbusId)) :
    InBlock source hash verify
      ((machine source hash verify mapping).event r (.initializeBlock header) :: h)
      ((machine source hash verify mapping).exec r (.initializeBlock header)).2 := by
  have hclosed := hi.closed (phase_eq_between.1 ho)
  have hexec : (machine source hash verify mapping).exec r (.initializeBlock header)
      = Template.initializeBlock source hash verify header r := rfl
  rcases initializeBlock_cases source hash verify r header with ⟨m, s, hp⟩ |
    ⟨u, account, hu, hl, hok⟩
  · rw [Completes, Op.run, hp] at hc
    cases hc
  · rw [hexec, hok]
    refine ⟨fun hnil => hclosed, fun hinc => ?_, fun b hb => ?_⟩
    · exact absurd (hclosed.symm.trans hinc) Bool.false_ne_true
    · obtain rfl := Option.some.inj hb
      refine ⟨u.author, account, ⟨header, u, rfl, hu, rfl⟩, hl, rfl, ?_, ?_⟩
      · rintro header' hop -
        cases hop
        exact prepares_initialized hu account
      · intro k hk hv
        obtain rfl := List.mem_singleton.1 hk
        exact hv.elim

theorem InBlock.kickOff {origin : RawOrigin AccountId} (hi : InBlock source hash verify h r)
    (hc : Completes source hash verify r (.kickOffAuthorshipValidation origin : Op Hash AccountId))
    (ho : InOrder h (.kickOffAuthorshipValidation origin : Op Hash AccountId))
    (mapping : List (AccountId × NimbusId)) :
    InBlock source hash verify
      ((machine source hash verify mapping).event r (.kickOffAuthorshipValidation origin) :: h)
      ((machine source hash verify mapping).exec r (.kickOffAuthorshipValidation origin)).2 := by
  have hne : currentBlock h ≠ [] := fun hnil => by
    rw [← phase_eq_between] at hnil
    rcases origin with _ | who | _ <;> simp [InOrder, hnil] at ho
  have hexec : (machine source hash verify mapping).exec r (.kickOffAuthorshipValidation origin)
      = inAuthorInherent source (AuthorInherent.kickOffAuthorshipValidation origin) r := rfl
  rcases kickOff_cases origin hc with ⟨rfl, account, ha, hcan, hok⟩ | herr
  · refine InBlock.within hi rfl hne ?_ (fun _ => ⟨ho, ?_⟩) (fun _ => .inr ?_)
      fun _ => ⟨ho, account, ha, hcan⟩
    · simp only [Machine.event, hexec, hok]
    · simp only [Machine.event, hexec, hok]
      exact fun _ _ hp => hp.congr rfl rfl rfl rfl rfl
    · simp only [Validates, Machine.event, hexec, hok]
  · have hnot : ¬ Validates ((machine source hash verify mapping).event r
        (.kickOffAuthorshipValidation origin)) := by
      simp [Validates, Machine.event, hexec, herr]
    refine InBlock.within hi rfl hne ?_ (fun hph => ⟨?_, ?_⟩) (fun hinc => .inl ?_)
      fun hv => absurd hv hnot
    · simp only [Machine.event, hexec, herr]
    · rcases origin with _ | who | _
      · cases hph
      · cases hph
      · exact ho
    · simp only [Machine.event, hexec, herr]
      exact fun _ _ hp => hp
    · simpa only [Machine.event, hexec, herr] using hinc

theorem InBlock.step {op : Op Hash AccountId} (hi : InBlock source hash verify h r)
    (hc : Completes source hash verify r op) (ho : InOrder h op)
    (mapping : List (AccountId × NimbusId)) :
    InBlock source hash verify ((machine source hash verify mapping).event r op :: h)
      ((machine source hash verify mapping).exec r op).2 := by
  cases op with
  | initializeBlock header => exact hi.initializeBlock hc ho mapping
  | setValidationData n =>
    have hne : currentBlock h ≠ [] := fun hnil => by
      rw [InOrder, phase_eq_between.2 hnil] at ho
      cases ho
    exact InBlock.within hi rfl hne rfl (fun _ => ⟨ho, fun _ _ hp => hp.congr rfl rfl rfl rfl rfl⟩)
      .inl fun hv => hv.elim
  | kickOffAuthorshipValidation origin => exact hi.kickOff hc ho mapping
  | setEligible origin new =>
    have hne : currentBlock h ≠ [] := fun hnil => ho (phase_eq_between.2 hnil)
    have hkeeps : Call.Keeps (fun r : Runtime Hash AccountId Material =>
        (r.author, r.inherentIncluded))
        (inAuthorFilter source (AuthorSlotFilter.Op.run (.setEligible origin new))) :=
      .handle (.on _ fun _ _ => rfl) fun _ _ => rfl
    obtain ⟨hauthor, hincluded⟩ := Prod.mk.inj (hkeeps r)
    exact InBlock.within hi rfl hne hauthor (fun hph => by cases hph)
      (fun hinc => .inl (hincluded ▸ hinc)) fun hv => hv.elim
  | finalizeBlock =>
    have hexec : (machine source hash verify mapping).exec r .finalizeBlock
      = inAuthorInherent source AuthorInherent.onFinalize r := rfl
    rcases AuthorInherent.onFinalize_cases (r.authorInherent source) with ⟨m, s, hf⟩ | ⟨hinc, hf⟩
    · rw [Completes, Op.run, inAuthorInherent_panic hf] at hc
      cases hc
    · have hok := inAuthorInherent_eq_ok.2 ⟨_, hf, rfl⟩
      rw [hexec, hok]
      refine ⟨fun _ => rfl, fun hinc => ?_, fun b hb => ?_⟩
      · cases hinc
      · cases hb

theorem inBlock_of_run {mapping : List (AccountId × NimbusId)}
    (hr : Run source hash verify mapping h r) : InBlock source hash verify h r := by
  refine hr.invariant (InBlock source hash verify) (fun r hg => ?_)
    fun _ _ _ _ hi hop => hi.step hop.1 hop.2 mapping
  refine ⟨fun _ => hg.inherentIncluded, fun hinc => ?_, fun b hb => ?_⟩
  · exact absurd (hg.inherentIncluded.symm.trans hinc) Bool.false_ne_true
  · cases hb

/-- **Predicted authors.** In every run of the runtime, each block that is finished got past the
author check, and each time it did, the prediction, asked on the state of the parent block for the
relay parent of that time, says that the key that sealed the block may author. -/
theorem finished_block_was_predicted {mapping : List (AccountId × NimbusId)}
    (hr : Run source hash verify mapping h r) :
    ∀ e h', e :: h' <:+ h → e.op = .finalizeBlock → ∃ b id, (currentBlock h').getLast? = some b ∧
      SealedBy hash verify b id ∧ (∃ k ∈ currentBlock h', Validates k) ∧
      ∀ k ∈ currentBlock h', Validates k → Predicted source hash b k id := by
  intro e h' hsuffix hop
  obtain ⟨s', hr'⟩ := hr.suffix hsuffix
  cases hr' with
  | @step _ s op hr' hallow =>
    obtain ⟨hc, ho⟩ := hallow
    obtain rfl : op = .finalizeBlock := hop
    have hi := inBlock_of_run hr'
    have hne : currentBlock h' ≠ [] := fun hnil => ho (phase_eq_between.2 hnil)
    obtain ⟨b, hb⟩ := Option.ne_none_iff_exists'.1 (mt List.getLast?_eq_none_iff.1 hne)
    obtain ⟨id, account, hseal, -, -, -, hpred⟩ := hi.opened b hb
    rcases AuthorInherent.onFinalize_cases (s.authorInherent source) with ⟨m, s', hf⟩ | ⟨hinc, -⟩
    · rw [Completes, Op.run, inAuthorInherent_panic hf] at hc
      cases hc
    · exact ⟨b, id, hb, hseal, hi.included hinc, hpred⟩

/-- A randomness source that stores nothing. -/
def sampleSource : RandomnessSource ℕ Unit where
  onInitialize _ _ _ := ()
  random _ _ _ _ := .replicate 32 0

/-- The genesis of two accounts, one of which is eligible in each slot. -/
def sampleRuntime : Runtime ℕ ℕ Unit where
  system := ⟨0, 0, []⟩
  material := ()
  relayParentNumber := .lit 0
  author := none
  inherentIncluded := false
  eligibleCount := some (.newUnchecked (.lit 1))
  eligibleRatio := none
  isFakeAuthor := false
  filterEvents := []
  accountSet := AccountSet.build [(7, sampleId 1), (8, sampleId 2)] .empty

theorem sampleRuntime_genesis :
    Genesis [(7, sampleId 1), (8, sampleId 2)] sampleRuntime := by
  have hone : AuthorSlotFilter.NonZeroU32.deserialize (.ok (.lit 1)) = .ok _ := rfl
  exact ⟨rfl, ⟨_, .serde hone, rfl⟩, rfl, rfl⟩

/-- A block of the first account in which governance makes both accounts eligible. -/
def sampleBlock : List (Op ℕ ℕ) :=
  [.initializeBlock AuthorInherent.sampleHeader, .setValidationData (.lit 5),
    .kickOffAuthorshipValidation .none, .setEligible .root [2, 0, 0, 0], .finalizeBlock]

abbrev sampleChain :=
  machine sampleSource (fun _ => 0) (fun id _ _ => id = sampleId 1)
    [(7, sampleId 1), (8, sampleId 2)]

theorem sampleChain_run : Run sampleSource (fun _ => 0) (fun id _ _ => id = sampleId 1)
    [(7, sampleId 1), (8, sampleId 2)] (sampleChain.replay [] sampleRuntime sampleBlock).1
    (sampleChain.replay [] sampleRuntime sampleBlock).2 :=
  Machine.run_replay sampleBlock (.start sampleRuntime_genesis) (by decide +kernel)

theorem finished_block_was_predicted_sampled :
    ∃ b id, (currentBlock (sampleChain.replay [] sampleRuntime sampleBlock).1.tail).getLast?
        = some b ∧ SealedBy (fun _ => 0) (fun id _ _ => id = sampleId 1) b id ∧
      (∃ k ∈ currentBlock (sampleChain.replay [] sampleRuntime sampleBlock).1.tail, Validates k) ∧
      ∀ k ∈ currentBlock (sampleChain.replay [] sampleRuntime sampleBlock).1.tail, Validates k →
        Predicted sampleSource (fun _ => 0) b k id :=
  finished_block_was_predicted sampleChain_run _ _ (List.suffix_refl _) rfl

end Blocks

end Template

end Moonkit
