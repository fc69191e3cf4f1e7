import Moonkit.Proofs.Seal

/-!
# Authorship of executed blocks

While a block is being executed, the stored author is the account that the account lookup gave,
when the block began, for the key that sealed it; nothing in the block can change it. The flag
of the inherent is false between blocks, so in a block that ends `can_author` was asked itself, and
said yes to that account.
-/

namespace Moonkit

namespace AuthorInherent

variable {Hash AuthorId AccountId : Type} (hash : Header Hash → Hash)
  (verify : NimbusId → Hash → NimbusSignature → Bool)

/-- The event begins a block that is sealed under `id`. -/
def SealedBy (e : RunEvent Hash AuthorId AccountId) (id : NimbusId) : Prop :=
  ∃ header u, e.op = .beginBlock header ∧ verifyAndRemoveSeal hash verify header = .ok u
    ∧ u.author = id

theorem filterMap_filter_asPreRuntime (digest : List DigestItem) :
    (digest.filter fun item => item.asPreRuntime.isSome).filterMap DigestItem.asPreRuntime
      = digest.filterMap DigestItem.asPreRuntime := by
  induction digest with
  | nil => rfl
  | cons item digest ih =>
    rcases hi : item.asPreRuntime with _ | d
    · simp [hi, ih]
    · simp [hi, ih]

/-- A block that begins is sealed, and its author is the account of the key that sealed it. -/
theorem beginBlock_cases (header : Header Hash) (s : State AuthorId) :
    (∃ m s', beginBlock hash verify header s = (.panic m, s')) ∨
      ∃ u account, verifyAndRemoveSeal hash verify header = .ok u ∧
        s.env.lookupAccount u.author = some account ∧
        beginBlock hash verify header s = (.ok (), { s with
          author := some account
          digest := u.header.digest.filter fun item => item.asPreRuntime.isSome }) := by
  unfold beginBlock
  rcases hv : verifyAndRemoveSeal hash verify header with u | e | m
  · have hclaim := ((verifyAndRemoveSeal_eq_ok hash verify).1 hv).author
    have hfind := findAuthor_of_claim s.env { s with
      digest := u.header.digest.filter fun item => item.asPreRuntime.isSome } _ hclaim
    simp only
    unfold onInitialize
    rw [Call.get_bind, filterMap_filter_asPreRuntime]
    rcases hl : s.env.lookupAccount u.author with _ | account <;> rw [hl] at hfind
    · exact .inl ⟨_, _, Call.bind_panic hfind⟩
    · refine .inr ⟨u, account, rfl, hl, ?_⟩
      rw [Call.bind_ok hfind]
      rfl
  · exact .inl ⟨e, s, rfl⟩
  · exact .inl ⟨m, s, rfl⟩

variable {hash} {verify}

variable [DecidableEq AccountId]

theorem kickOff_cases (origin : RawOrigin AccountId) (s : State AuthorId) :
    kickOffAuthorshipValidation origin s = (.err .badOrigin, s) ∨
      (∃ m s', kickOffAuthorshipValidation origin s = (.panic m, s')) ∨
      ∃ account, s.author = some account ∧ s.env.canAuthor account s.env.slot = true ∧
        kickOffAuthorshipValidation origin s = (.ok (), { s with inherentIncluded := true }) := by
  unfold kickOffAuthorshipValidation
  rw [Call.ensure_bind]
  split_ifs with ho
  swap
  · exact .inl rfl
  right
  rcases ha : s.author with _ | account
  · refine .inl ⟨"Block author not inserted into Author Inherent Pallet", s, ?_⟩
    rw [Call.get_bind]
    refine Call.bind_panic ?_
    unfold getAuthor
    rw [Call.get_bind, ha, Call.expect_none, Call.panic_apply]
  · have hget : getAuthor s = (.ok account, s) := by
      unfold getAuthor
      rw [Call.get_bind, ha, Call.expect_some, Call.pure_apply]
    rw [Call.get_bind, Call.bind_ok hget, Call.assert_bind]
    split_ifs with hc
    · exact .inr ⟨account, rfl, hc, by simp [ha]⟩
    · exact .inl ⟨_, s, rfl⟩

theorem onFinalize_cases (s : State AuthorId) :
    (∃ m s', onFinalize s = (.panic m, s')) ∨
      s.inherentIncluded = true
        ∧ onFinalize s = (.ok (), { s with inherentIncluded := false }) := by
  unfold onFinalize
  rw [Call.get_bind, Call.modify_bind]
  unfold Call.assert
  split_ifs with hi
  · exact .inr ⟨hi, rfl⟩
  · exact .inl ⟨_, _, rfl⟩

/-- At a call of the inherent that asked about an account, `can_author` said yes to it. -/
def Permitted (e : RunEvent Hash AuthorId AccountId) (asked : AuthorId) : Prop :=
  e.before.env.canAuthor asked e.before.env.slot = true

/-- What the history of a run says about the flag and the author. -/
structure InBlock (hash : Header Hash → Hash) (verify : NimbusId → Hash → NimbusSignature → Bool)
    (h : List (RunEvent Hash AuthorId AccountId)) (s : State AuthorId) : Prop where
  closed : currentBlock h = none → s.inherentIncluded = false
  opened : ∀ b es, currentBlock h = some (b, es) → ∃ id account, SealedBy hash verify b id ∧
    b.before.env.lookupAccount id = some account ∧ s.author = some account ∧
    (∀ e ∈ es, ∀ asked, askedAuthor e = some asked → asked = account ∧ Permitted e asked) ∧
    (s.inherentIncluded = true → ∃ e ∈ es, (askedAuthor e).isSome)

section Step

variable {h : List (RunEvent Hash AuthorId AccountId)} {s : State AuthorId}

theorem InBlock.beginBlock {header : Header Hash} (hi : InBlock hash verify h s)
    (hc : Completes hash verify s (.beginBlock header : Op Hash AuthorId AccountId))
    (ho : InOrder h (.beginBlock header)) :
    InBlock hash verify ((machine hash verify AuthorId AccountId).event s (.beginBlock header) :: h)
      ((machine hash verify AuthorId AccountId).exec s (.beginBlock header)).2 := by
  have hflag := hi.closed (Option.isNone_iff_eq_none.1 ho)
  have hrun : ((machine hash verify AuthorId AccountId).exec s (.beginBlock header))
      = AuthorInherent.beginBlock hash verify header s := rfl
  rcases beginBlock_cases hash verify header s with ⟨m, s', hb⟩ | ⟨u, account, hv, hl, hb⟩
  · simp [Completes, Op.run, hb, Outcome.isPanic] at hc
  · rw [hrun, hb]
    refine ⟨by simp [currentBlock, Machine.event], ?_⟩
    rintro b es hcur
    simp only [currentBlock, Machine.event, Option.some.injEq, Prod.mk.injEq] at hcur
    obtain ⟨rfl, rfl⟩ := hcur
    exact ⟨u.author, account, ⟨header, u, rfl, hv, rfl⟩, hl, rfl, by simp, by simp [hflag]⟩

omit [DecidableEq AccountId] in
/-- An event that neither begins nor ends a block, and keeps the author. -/
theorem InBlock.within {e : RunEvent Hash AuthorId AccountId} (hi : InBlock hash verify h e.before)
    (hcur : currentBlock (e :: h) = (currentBlock h).map fun block => (block.1, e :: block.2))
    (hsome : (currentBlock h).isSome) (hauthor : e.after.author = e.before.author)
    (hasked : ∀ asked, askedAuthor e = some asked →
      e.before.author = some asked ∧ Permitted e asked)
    (hflag : e.after.inherentIncluded = true →
      e.before.inherentIncluded = true ∨ (askedAuthor e).isSome) :
    InBlock hash verify (e :: h) e.after := by
  obtain ⟨⟨b, es⟩, hb⟩ := Option.isSome_iff_exists.1 hsome
  rw [hb, Option.map_some] at hcur
  refine ⟨by simp [hcur], ?_⟩
  rintro b' es' hcur'
  rw [hcur, Option.some.injEq, Prod.mk.injEq] at hcur'
  obtain ⟨rfl, rfl⟩ := hcur'
  obtain ⟨id, account, hseal, hl, ha, hes, hinc⟩ := hi.opened b es hb
  refine ⟨id, account, hseal, hl, hauthor.trans ha, fun x hx asked hasked' => ?_, fun hafter => ?_⟩
  · rcases List.mem_cons.1 hx with rfl | hx
    · obtain ⟨hauthor', hpermitted⟩ := hasked asked hasked'
      exact ⟨Option.some.inj (hauthor'.symm.trans ha), hpermitted⟩
    · exact hes x hx asked hasked'
  · rcases hflag hafter with hbefore | hnow
    · obtain ⟨x, hx, hsomex⟩ := hinc hbefore
      exact ⟨x, List.mem_cons_of_mem _ hx, hsomex⟩
    · exact ⟨e, List.mem_cons_self, hnow⟩

theorem InBlock.step {op : Op Hash AuthorId AccountId} (hi : InBlock hash verify h s)
    (hc : Completes hash verify s op) (ho : InOrder h op) :
    InBlock hash verify ((machine hash verify AuthorId AccountId).event s op :: h)
      ((machine hash verify AuthorId AccountId).exec s op).2 := by
  cases op with
  | beginBlock header => exact hi.beginBlock hc ho
  | kickOffAuthorshipValidation origin =>
    have hrun : (machine hash verify AuthorId AccountId).exec s
      (.kickOffAuthorshipValidation origin) = kickOffAuthorshipValidation origin s := rfl
    rcases kickOff_cases origin s with hk | ⟨m, s', hk⟩ | ⟨account, ha, hcan, hk⟩
    · refine InBlock.within hi rfl ho ?_ ?_ ?_
      · simp [Machine.event, hrun, hk]
      · simp [Machine.event, hrun, hk, askedAuthor]
      · simp only [Machine.event, hrun, hk]
        exact .inl
    · simp [Completes, Op.run, hk, Outcome.isPanic] at hc
    · refine InBlock.within hi rfl ho ?_ ?_ ?_
      · simp [Machine.event, hrun, hk]
      · simp [Machine.event, hrun, hk, askedAuthor, ha, Permitted, hcan]
      · simp [Machine.event, hrun, hk, askedAuthor, ha]
  | elsewhere env => exact InBlock.within hi rfl ho rfl (by simp [askedAuthor, Machine.event]) .inl
  | endBlock =>
    have hrun : (machine hash verify AuthorId AccountId).exec s .endBlock = onFinalize s := rfl
    rcases onFinalize_cases s with ⟨m, s', hf⟩ | ⟨-, hf⟩
    · simp [Completes, Op.run, hf, Outcome.isPanic] at hc
    · rw [hrun, hf]
      exact ⟨fun _ => rfl, by simp [currentBlock, Machine.event]⟩

end Step

theorem inBlock_of_run {h : List (RunEvent Hash AuthorId AccountId)} {s : State AuthorId}
    (hr : Machine.Run (machine hash verify AuthorId AccountId)
      (fun h s op => Completes hash verify s op ∧ InOrder h op) h s) : InBlock hash verify h s :=
  Machine.Run.invariant (InBlock hash verify) (fun _ hg => ⟨fun _ => hg, by simp [currentBlock]⟩)
    (fun _ _ _ _ hi hop => hi.step hop.1 hop.2) hr

/-- **Authorship.** Every block begins with the flag cleared. In every block that ends, the
inherent succeeded, and each time it did, `can_author` was asked about the account that the lookup
gave, when the block began, for the key that sealed the block, and said yes. -/
theorem completed_block_checked_author {h : List (RunEvent Hash AuthorId AccountId)}
    {s : State AuthorId}
    (hr : Machine.Run (machine hash verify AuthorId AccountId)
      (fun h s op => Completes hash verify s op ∧ InOrder h op) h s) :
    (∀ e ∈ h, ∀ header, e.op = .beginBlock header → e.before.inherentIncluded = false) ∧
    ∀ e h', e :: h' <:+ h → e.op = .endBlock → ∃ b es id, currentBlock h' = some (b, es) ∧
      SealedBy hash verify b id ∧ (∃ x ∈ es, (askedAuthor x).isSome) ∧
      ∀ x ∈ es, ∀ account, askedAuthor x = some account →
        b.before.env.lookupAccount id = some account ∧
          x.before.env.canAuthor account x.before.env.slot = true := by
  refine ⟨fun e he header hop => ?_, fun e h' hsuffix hop => ?_⟩
  · obtain ⟨h', hr', ⟨-, ho⟩, -⟩ := hr.mem_event he
    rw [hop] at ho
    exact (inBlock_of_run hr').closed (Option.isNone_iff_eq_none.1 ho)
  · obtain ⟨s', hr'⟩ := hr.suffix hsuffix
    cases hr' with
    | @step _ s op hr' hallow =>
      obtain ⟨hc, ho⟩ := hallow
      obtain rfl : op = .endBlock := hop
      obtain ⟨⟨b, es⟩, hb⟩ := Option.isSome_iff_exists.1 ho
      obtain ⟨id, account, hseal, hl, -, hes, hinc⟩ := (inBlock_of_run hr').opened b es hb
      rcases onFinalize_cases s with ⟨m, s', hf⟩ | ⟨hflag, -⟩
      · simp [Completes, Op.run, hf, Outcome.isPanic] at hc
      · refine ⟨b, es, id, hb, hseal, hinc hflag, fun x hx asked hasked => ?_⟩
        obtain ⟨rfl, hpermitted⟩ := hes x hx asked hasked
        exact ⟨hl, hpermitted⟩

def sampleHeader : Header ℕ where
  parentHash := 0
  number := 1
  stateRoot := 0
  extrinsicsRoot := 0
  digest := [.nimbusPreDigest (sampleId 1), .nimbusSeal (Vector.replicate 64 0)]

/-- A runtime in which the key of that author is mapped to account 7, who can author. -/
def sampleEnv : Env ℕ where
  lookupAccount id := if id = sampleId 1 then some 7 else none
  canAuthor account _ := account = 7
  slot := 0

/-- A block with a call that fails, the inherent, and a change of the lookup. -/
def sampleOps : List (Op ℕ ℕ ℕ) :=
  [.beginBlock sampleHeader, .kickOffAuthorshipValidation (.signed 3),
    .kickOffAuthorshipValidation .none,
    .elsewhere { sampleEnv with lookupAccount := fun _ => none },
    .endBlock]

/-- The machine with a signature check that knows one key. -/
abbrev sampleMachine : Machine (State ℕ) (Op ℕ ℕ ℕ) (Outcome DispatchError Unit) :=
  machine (fun _ => 0) (fun id _ _ => id = sampleId 1) ℕ ℕ

def sampled : List (RunEvent ℕ ℕ ℕ) × State ℕ :=
  sampleMachine.replay [] ⟨none, false, [], sampleEnv⟩ sampleOps

theorem completed_block_checked_author_sampled :
    ∃ b es id, currentBlock sampled.1.tail = some (b, es) ∧
      SealedBy (fun _ => 0) (fun id _ _ => id = sampleId 1) b id ∧
      (∃ x ∈ es, (askedAuthor x).isSome) ∧
      ∀ x ∈ es, ∀ account, askedAuthor x = some account →
        b.before.env.lookupAccount id = some account ∧
          x.before.env.canAuthor account x.before.env.slot = true := by
  have hrun : Machine.Run sampleMachine (fun h s op => Completes (fun _ => 0)
      (fun id _ _ => id = sampleId 1) s op ∧ InOrder h op) sampled.1 sampled.2 :=
    Machine.run_replay sampleOps (.start rfl) (by decide +kernel)
  exact (completed_block_checked_author hrun).2 _ _ (List.suffix_refl _) rfl

end AuthorInherent

end Moonkit
