import Moonkit.Lookahead

/-!
# Submissions of the lookahead collator

What the loop does on a relay block is a list of blocks, each on the one before it: the messages of
the pass are at most one about the connection and then, for each block, its announcement and the
submission of its collation. The connection messages alternate along a run.
-/

namespace Moonkit

namespace Lookahead

open NimbusConsensus (KeystoreKeys claimSlot buildBlockAndImport Block)
open SlotBased (asU32)

variable {Hash Body RelayHash RuntimeVersion InherentData Collation CodeHash : Type}

section Blocks

/-- A block that the loop built, and what was submitted for it. -/
structure Built (Hash Collation CodeHash : Type) where
  parent : Header Hash
  author : NimbusId
  header : Header Hash
  collation : Collation
  validationCodeHash : CodeHash

variable [DecidableEq Hash] [DecidableEq RuntimeVersion] (hash : Header Hash → Hash)
  (params : Params)
  (n : Notification Hash Body RelayHash RuntimeVersion InherentData Collation CodeHash)
  (target : Target Hash)

/-- The announcement of a block and the submission of its collation. -/
def Built.messages (b : Built Hash Collation CodeHash) :
    List (Message RelayHash Hash Collation CodeHash) :=
  [.announceBlock (hash b.header), .submitCollation
    ⟨n.relayParent.hash, b.collation, b.parent, b.validationCodeHash, target.coreIndex⟩]

/-- The node claimed the slot, there was room for the block, and the node built and packed it. -/
structure Built.Allowed (b : Built Hash Collation CodeHash) : Prop where
  claimed : claimSlot hash n.node.paraClient n.node.keystore b.parent n.relayParent.number
    params.forceAuthoring = .ok (some b.author)
  fits : hash b.parent = target.includedBlock ∨ n.node.unincludedSegment.canBuildUpon
    (hash b.parent) target.includedBlock target.slotNow = .ok true
  collated : ∃ inputs block blockData, buildBlockAndImport hash n.node.collator b.parent
      ⟨b.author, target.timestamp⟩ (some (n.node.provideDigests b.author (hash b.parent))) inputs
        = .ok (some block) ∧
    n.node.buildCollation b.parent (hash block.header) block = some (b.collation, blockData) ∧
    blockData.head?.map Block.header = some b.header
  code : n.node.codeHashAt (hash b.parent) = some b.validationCodeHash

/-- At most `passes` allowed blocks, the first on `parent` and each other on the one before it. -/
inductive BuiltOn : ℕ → Header Hash → List (Built Hash Collation CodeHash) → Prop
  | done {passes : ℕ} {parent : Header Hash} : BuiltOn passes parent []
  | more {passes : ℕ} {b : Built Hash Collation CodeHash}
      {bs : List (Built Hash Collation CodeHash)} : b.Allowed hash params n target →
      BuiltOn passes b.header bs → BuiltOn (passes + 1) b.parent (b :: bs)

variable {hash params n target}

omit [DecidableEq Hash] in
/-- At most `passes` blocks, the first on `parent`, each other on the one before it, all allowed. -/
theorem BuiltOn.chain {passes : ℕ} {parent : Header Hash}
    {bs : List (Built Hash Collation CodeHash)}
    (hbs : BuiltOn hash params n target passes parent bs) : bs.length ≤ passes ∧
      (∀ b ∈ bs.head?, b.parent = parent) ∧ bs.IsChain (fun b next => next.parent = b.header) ∧
      ∀ b ∈ bs, b.Allowed hash params n target := by
  induction hbs with
  | done => simp
  | more hb hrest ih =>
    obtain ⟨hlength, hhead, hchain, hallowed⟩ := ih
    refine ⟨Nat.succ_le_succ hlength, ?_, List.isChain_cons.2 ⟨hhead, hchain⟩,
      List.forall_mem_cons.2 ⟨hb, hallowed⟩⟩
    rintro _ ⟨⟩
    rfl

omit [DecidableEq Hash] [DecidableEq RuntimeVersion] in
theorem sendMsg_apply (message : Message RelayHash Hash Collation CodeHash)
    (s : State RelayHash Hash Collation CodeHash) :
    sendMsg message s = (.ok (), { s with messages := s.messages ++ [message] }) := rfl

theorem canBuildUpon_eq_some {slot : Slot} {parent : Header Hash} {number : U32}
    {includedBlock : Hash} {force : Bool} {id : NimbusId}
    (h : canBuildUpon hash n.node slot parent number includedBlock force = some id) :
    claimSlot hash n.node.paraClient n.node.keystore parent number force = .ok (some id) ∧
      (hash parent = includedBlock ∨
        n.node.unincludedSegment.canBuildUpon (hash parent) includedBlock slot = .ok true) := by
  unfold canBuildUpon at h
  rcases hclaim : claimSlot hash n.node.paraClient n.node.keystore parent number force with
    e | _ | id' <;> simp only [hclaim, reduceCtorEq] at h
  split_ifs at h with hne
  · rcases hcan : n.node.unincludedSegment.canBuildUpon (hash parent) includedBlock slot with
      e | _ | _ <;> simp only [hcan, reduceCtorEq, Option.some.injEq] at h
    exact ⟨by rw [h], .inr rfl⟩
  · exact ⟨by rw [Option.some.inj h], .inl (not_not.1 hne)⟩

omit [DecidableEq Hash] [DecidableEq RuntimeVersion] in
theorem collate_eq_ok {parent : Header Hash} {claim : NimbusConsensus.SlotClaim}
    {digests : List DigestItem} {inputs : InherentData × U32} {collation : Collation}
    {blockData : List (Block Hash Body)}
    (h : collate hash n.node parent claim digests inputs = .ok (some (collation, blockData))) :
    ∃ block, buildBlockAndImport hash n.node.collator parent claim (some digests) inputs
        = .ok (some block) ∧
      n.node.buildCollation parent (hash block.header) block = some (collation, blockData) := by
  unfold collate at h
  obtain ⟨candidate, hbuild, hrest⟩ := Outcome.bind_eq_ok.1 h
  rcases candidate with _ | block
  · cases hrest
  · rcases hpack : n.node.buildCollation parent (hash block.header) block with
      _ | ⟨collation', blockData'⟩ <;> simp only [hpack] at hrest
    · cases hrest
    · cases hrest
      exact ⟨block, hbuild, hpack⟩

variable (hash params n target) in
/-- One pass either ends the loop and does nothing else, or builds and submits one block. -/
theorem buildOnce_cases (parent : Header Hash) (s : State RelayHash Hash Collation CodeHash) :
    (∃ r, buildOnce hash params n target parent s = (r, s) ∧ ∀ header, r ≠ .ok (some header)) ∨
      ∃ b : Built Hash Collation CodeHash, b.parent = parent ∧ b.Allowed hash params n target ∧
        buildOnce hash params n target parent s = (.ok (some b.header),
          { s with messages := s.messages ++ b.messages hash n target }) := by
  unfold buildOnce
  rcases hcan : canBuildUpon hash n.node target.slotNow parent n.relayParent.number
    target.includedBlock params.forceAuthoring with _ | author
  · exact .inl ⟨_, rfl, by simp⟩
  rcases hdata : n.node.createInherentData n.relayParent.hash
    ⟨parent, n.relayParent.number, n.relayParent.stateRoot, target.maxPovSize⟩ (hash parent)
    target.timestamp author with e | inherentData
  · simp only [hdata]
    exact .inl ⟨_, rfl, by simp⟩
  rcases hcode : n.node.codeHashAt (hash parent) with _ | codeHash
  · simp only [hdata]
    exact .inl ⟨_, rfl, by simp⟩
  simp only [hdata]
  rcases hsize : (allowedPovSize params.maxPovPercentage target.maxPovSize : Outcome Unit U32)
    with size | e | m
  · have hlift : (Call.lift (Outcome.ok size) : LoopCall RelayHash Hash Collation CodeHash U32) s
      = (.ok size, s) := rfl
    rw [Call.bind_ok hlift]
    rcases hcollate : collate hash n.node parent ⟨author, target.timestamp⟩
      (n.node.provideDigests author (hash parent)) (inherentData, size) with
      (_ | ⟨collation, blockData⟩) | e | m
    · exact .inl ⟨_, rfl, by simp⟩
    · have hhandle : (Call.handle (Call.lift (Outcome.ok (some (collation, blockData))
          : Outcome String _)) (fun _ => pure none) : LoopCall RelayHash Hash Collation CodeHash
            (Option (Collation × List (Block Hash Body)))) s
          = (.ok (some (collation, blockData)), s) := rfl
      rcases hhead : blockData.head? with _ | newBlock
      · refine .inl ⟨.ok none, ?_, by simp⟩
        rw [Call.bind_ok hhandle]
        simp only [hhead]
        rfl
      · obtain ⟨block, hbuild, hpack⟩ := collate_eq_ok hcollate
        obtain ⟨hclaim, hfits⟩ := canBuildUpon_eq_some hcan
        refine .inr ⟨⟨parent, author, newBlock.header, collation, codeHash⟩, rfl,
          ⟨hclaim, hfits, ⟨_, block, blockData, hbuild, hpack, by rw [hhead]; rfl⟩, hcode⟩, ?_⟩
        rw [Call.bind_ok hhandle]
        simp only [hhead]
        rw [Call.bind_ok (sendMsg_apply _ _), Call.bind_ok (sendMsg_apply _ _)]
        simp [Built.messages]
    · exact .inl ⟨_, rfl, by simp⟩
    · exact .inl ⟨_, rfl, by simp⟩
  · exact .inl ⟨_, rfl, by simp⟩
  · exact .inl ⟨_, rfl, by simp⟩

variable (hash params n target) in
/-- The loop builds a chain of blocks. -/
theorem buildLoop_builtOn : ∀ (passes : ℕ) (parent : Header Hash)
    (s : State RelayHash Hash Collation CodeHash),
    ∃ bs, BuiltOn hash params n target passes parent bs ∧
      (buildLoop hash params n target passes parent s).2
        = { s with messages := s.messages ++ bs.flatMap (Built.messages hash n target) }
  | 0, _, s => ⟨[], .done, by simp [buildLoop]⟩
  | passes + 1, parent, s => by
    unfold buildLoop
    rcases buildOnce_cases hash params n target parent s with ⟨r, hr, hnone⟩ | ⟨b, rfl, hb, hok⟩
    · refine ⟨[], .done, ?_⟩
      rcases r with (_ | header) | e | m
      · rw [Call.bind_ok hr]
        simp
      · exact absurd rfl (hnone header)
      · rw [Call.bind_err hr]
        simp
      · rw [Call.bind_panic hr]
        simp
    · obtain ⟨bs, hbs, hloop⟩ := buildLoop_builtOn passes b.header
        { s with messages := s.messages ++ b.messages hash n target }
      refine ⟨b :: bs, .more hb hbs, ?_⟩
      rw [Call.bind_ok hok]
      simp only [hloop, List.flatMap_cons, List.append_assoc]

end Blocks

section Connection

/-- The message about the connection where it is to be `after` and was `before`. -/
def connectionChange (before after : Bool) : List (Message RelayHash Hash Collation CodeHash) :=
  if after && !before then [.connectToBackingGroups]
  else if !after && before then [.disconnectFromBackingGroups]
  else []

/-- What an update of the connection helper makes of it, and what it sends. -/
structure Updates (keystore : KeystoreKeys) (slot : Slot) (c c' : ConnectionHelper)
    (ms : List (Message RelayHash Hash Collation CodeHash)) : Prop where
  lastSlot : c'.lastSlot = some slot
  connected : c'.connected = if c.lastSlot = some slot then c.connected else hasKeys keystore
  sent : ms = connectionChange c.connected c'.connected

theorem updateConnection_apply (keystore : KeystoreKeys) (slot : Slot)
    (s : State RelayHash Hash Collation CodeHash) : ∃ c ms,
      updateConnection keystore slot s = (.ok (), ⟨c, s.messages ++ ms⟩) ∧
        Updates keystore slot s.connection c ms := by
  obtain ⟨⟨lastSlot, connected⟩, messages⟩ := s
  unfold updateConnection
  rw [Call.get_bind]
  by_cases hsame : lastSlot = some slot
  · refine ⟨⟨lastSlot, connected⟩, [], by simp [hsame], hsame, by simp [hsame], ?_⟩
    cases connected <;> rfl
  · simp only [hsame, if_false, Call.modify_bind]
    rcases hkeys : hasKeys keystore with _ | _ <;> rcases connected with _ | _
    · exact ⟨⟨some slot, false⟩, [], by simp, rfl, by simp [hsame, hkeys], rfl⟩
    · refine ⟨⟨some slot, false⟩, [.disconnectFromBackingGroups], ?_, rfl, by simp [hsame, hkeys],
        rfl⟩
      simp only [Bool.false_and, Bool.false_eq_true, if_false, Bool.not_false, Bool.and_self,
        if_true]
      rfl
    · refine ⟨⟨some slot, true⟩, [.connectToBackingGroups], ?_, rfl, by simp [hsame, hkeys], rfl⟩
      simp only [Bool.not_false, Bool.and_self, if_true]
      rfl
    · exact ⟨⟨some slot, true⟩, [], by simp, rfl, by simp [hsame, hkeys], rfl⟩

end Connection

section Slots

variable (params : Params)

/-- The slot of a relay block that the loop gets to build on: a core is for the parachain, the size
of the PoV and the slot are known, and a parent is found. -/
def handledSlot
    (n : Notification Hash Body RelayHash RuntimeVersion InherentData Collation CodeHash) :
    Option Slot :=
  match (coresScheduledForPara params.paraId n.maxCandidateDepth n.availabilityCores).head?,
    n.maxPovSize, n.relaySlotAndTimestamp with
  | some _, .ok (some _), some (relaySlot, timestamp) =>
    match slotNow params relaySlot timestamp, n.findParentForBuilding with
    | .ok slot, .ok (some _) => some slot
    | _, _ => none
  | _, _, _ => none

/-- The slot of the newest relay block that was handled. -/
def lastHandled
    (ns : List (Notification Hash Body RelayHash RuntimeVersion InherentData Collation CodeHash)) :
    Option Slot :=
  ns.findSome? (handledSlot params)

theorem lastHandled_cons
    (n : Notification Hash Body RelayHash RuntimeVersion InherentData Collation CodeHash)
    (ns : List (Notification Hash Body RelayHash RuntimeVersion InherentData Collation CodeHash)) :
    lastHandled params (n :: ns) = (handledSlot params n).or (lastHandled params ns) := by
  rcases hslot : handledSlot params n with _ | slot <;> simp [lastHandled, hslot]

/-- The node had keys at the newest handled relay block with another slot than the one handled
before it. -/
def keysAtNewSlot :
    List (Notification Hash Body RelayHash RuntimeVersion InherentData Collation CodeHash) → Bool
  | [] => false
  | n :: ns =>
    match handledSlot params n with
    | none => keysAtNewSlot ns
    | some slot =>
      if lastHandled params ns = some slot then keysAtNewSlot ns else hasKeys n.node.keystore

end Slots

section Handling

variable [DecidableEq Hash] [DecidableEq RuntimeVersion] (hash : Header Hash → Hash)
  (params : Params)

theorem scheduledFrom_head? {paraId : BlockBuilder.ParaId} {depth : U32}
    {coreIndex : BlockBuilder.CoreIndex} : ∀ {cores : List CoreState} {index : ℕ},
    (scheduledFrom paraId depth index cores).head? = some coreIndex →
      ∃ before core after, cores = before ++ core :: after ∧ core.paraId depth = some paraId ∧
        (∀ other ∈ before, other.paraId depth ≠ some paraId) ∧
        coreIndex = asU32 (index + before.length)
  | [], _, h => by cases h
  | core :: cores, index, h => by
    unfold scheduledFrom at h
    split_ifs at h with hcore
    · rw [List.head?_cons, Option.some.injEq] at h
      exact ⟨[], core, cores, rfl, hcore, by simp, h.symm⟩
    · obtain ⟨before, found, after, rfl, hfound, hnone, rfl⟩ := scheduledFrom_head? h
      refine ⟨core :: before, found, after, rfl, hfound, ?_, ?_⟩
      · rintro other (_ | ⟨_, hother⟩)
        exacts [hcore, hnone other hother]
      · rw [List.length_cons, Nat.add_assoc, Nat.add_comm 1]

/-- What is fixed where the loop builds on a relay block: the first core that is for the
parachain, the size of the PoV, the slot of the relay block, and the parent found. -/
structure Targets
    (n : Notification Hash Body RelayHash RuntimeVersion InherentData Collation CodeHash)
    (target : Target Hash) (best : Header Hash) : Prop where
  core : ∃ before core after, n.availabilityCores = .ok (before ++ core :: after) ∧
    core.paraId (n.maxCandidateDepth.getD 0) = some params.paraId ∧
    (∀ other ∈ before, other.paraId (n.maxCandidateDepth.getD 0) ≠ some params.paraId) ∧
    target.coreIndex = asU32 before.length
  maxPovSize : n.maxPovSize = .ok (some target.maxPovSize)
  slot : ∃ relaySlot, n.relaySlotAndTimestamp = some (relaySlot, target.timestamp) ∧
    slotNow params relaySlot target.timestamp = .ok target.slotNow
  parent : ∃ included, n.findParentForBuilding = .ok (some (included, best)) ∧
    target.includedBlock = hash included

/-- What a relay block that is handled makes of the state: the connection is brought up to date,
then at most two blocks are built on the parent found. -/
def Handles (n : Notification Hash Body RelayHash RuntimeVersion InherentData Collation CodeHash)
    (s s' : State RelayHash Hash Collation CodeHash) : Prop :=
  ∃ target best ms bs, Targets hash params n target best ∧
    handledSlot params n = some target.slotNow ∧
    Updates n.node.keystore target.slotNow s.connection s'.connection ms ∧
    BuiltOn hash params n target 2 best bs ∧
    s'.messages = s.messages ++ (ms ++ bs.flatMap (Built.messages hash n target))

variable {hash params}

theorem coresScheduled_head? {paraId : BlockBuilder.ParaId} {depth : Option U32}
    {cores : Except String (List CoreState)} {coreIndex : BlockBuilder.CoreIndex}
    (h : (coresScheduledForPara paraId depth cores).head? = some coreIndex) :
    ∃ before core after, cores = .ok (before ++ core :: after) ∧
      core.paraId (depth.getD 0) = some paraId ∧
      (∀ other ∈ before, other.paraId (depth.getD 0) ≠ some paraId) ∧
      coreIndex = asU32 before.length := by
  rcases cores with e | cores
  · cases h
  · obtain ⟨before, core, after, rfl, hcore, hnone, hindex⟩ := scheduledFrom_head? h
    exact ⟨before, core, after, rfl, hcore, hnone, by rwa [Nat.zero_add] at hindex⟩

theorem handle_cases
    (n : Notification Hash Body RelayHash RuntimeVersion InherentData Collation CodeHash)
    (s : State RelayHash Hash Collation CodeHash) :
    handledSlot params n = none ∧ (handle hash params n s).2 = s ∨
      Handles hash params n s (handle hash params n s).2 := by
  unfold handle
  rcases hcore : (coresScheduledForPara params.paraId n.maxCandidateDepth
    n.availabilityCores).head? with _ | coreIndex
  · exact .inl ⟨by simp [handledSlot, *], rfl⟩
  rcases hpov : n.maxPovSize with e | _ | maxPovSize
  · exact .inl ⟨by simp [handledSlot, *], rfl⟩
  · exact .inl ⟨by simp [handledSlot, *], rfl⟩
  rcases hslot : n.relaySlotAndTimestamp with _ | ⟨relaySlot, timestamp⟩
  · exact .inl ⟨by simp [handledSlot, *], rfl⟩
  dsimp only
  rcases hnow : slotNow params relaySlot timestamp with now | e | m
  · rcases hparent : n.findParentForBuilding with e | _ | ⟨included, best⟩
    · exact .inl ⟨by simp [handledSlot, *], rfl⟩
    · exact .inl ⟨by simp [handledSlot, *], rfl⟩
    · right
      obtain ⟨c, ms, hupdate, hupdates⟩ := updateConnection_apply n.node.keystore now s
      obtain ⟨bs, hbuilt, hloop⟩ := buildLoop_builtOn hash params n
        ⟨coreIndex, maxPovSize, now, timestamp, hash included⟩ 2 best ⟨c, s.messages ++ ms⟩
      refine ⟨⟨coreIndex, maxPovSize, now, timestamp, hash included⟩, best, ms, bs,
        ⟨coresScheduled_head? hcore, hpov, ⟨relaySlot, hslot, hnow⟩, included, hparent, rfl⟩,
        by simp [handledSlot, hcore, hpov, hslot, hnow, hparent], ?_, hbuilt, ?_⟩
      all_goals
        rw [Call.bind_ok (rfl : (Call.lift (Outcome.ok now) : LoopCall _ _ _ _ _) s = (.ok now, s))]
        dsimp only
        rw [Call.bind_ok hupdate, hloop]
      · exact hupdates
      · simp only [List.append_assoc]
  · exact .inl ⟨by simp [handledSlot, *], rfl⟩
  · exact .inl ⟨by simp [handledSlot, *], rfl⟩

end Handling

section Runs

abbrev RunEvent (Hash Body RelayHash RuntimeVersion InherentData Collation CodeHash : Type) :=
  Machine.Event (State RelayHash Hash Collation CodeHash)
    (Notification Hash Body RelayHash RuntimeVersion InherentData Collation CodeHash)
    (Outcome Unit Unit)

/-- What was sent while a relay block was handled. -/
def sent (e : RunEvent Hash Body RelayHash RuntimeVersion InherentData Collation CodeHash) :
    List (Message RelayHash Hash Collation CodeHash) :=
  e.after.messages.drop e.before.messages.length

/-- The connection after a message about it. -/
def Message.connection : Message RelayHash Hash Collation CodeHash → Option Bool
  | .connectToBackingGroups => some true
  | .disconnectFromBackingGroups => some false
  | _ => none

/-- The changes of the connection among the messages. -/
def changes (messages : List (Message RelayHash Hash Collation CodeHash)) : List Bool :=
  messages.filterMap Message.connection

/-- The collation that a message submits. -/
def Message.submission : Message RelayHash Hash Collation CodeHash →
    Option (SubmitCollationParams RelayHash Hash Collation CodeHash)
  | .submitCollation params => some params
  | _ => none

theorem mem_submissions {messages : List (Message RelayHash Hash Collation CodeHash)}
    {p : SubmitCollationParams RelayHash Hash Collation CodeHash} :
    p ∈ messages.filterMap Message.submission ↔ .submitCollation p ∈ messages := by
  rw [List.mem_filterMap]
  constructor
  · rintro ⟨message, hmem, hp⟩
    cases message <;> cases hp
    exact hmem
  · exact fun hmem => ⟨_, hmem, rfl⟩

variable [DecidableEq Hash] [DecidableEq RuntimeVersion] {hash : Header Hash → Hash}
  {params : Params}

/-- What may be sent for a relay block: nothing, or a message about the connection, if any, and
then the messages for at most two blocks, the first on the parent found. -/
def Sends (hash : Header Hash → Hash) (params : Params)
    (n : Notification Hash Body RelayHash RuntimeVersion InherentData Collation CodeHash)
    (messages : List (Message RelayHash Hash Collation CodeHash)) : Prop :=
  messages = [] ∨ ∃ target best before after bs, Targets hash params n target best ∧
    BuiltOn hash params n target 2 best bs ∧
    messages = connectionChange before after ++ bs.flatMap (Built.messages hash n target)

theorem sent_spec
    (n : Notification Hash Body RelayHash RuntimeVersion InherentData Collation CodeHash)
    (s : State RelayHash Hash Collation CodeHash) :
    (handle hash params n s).2.messages = s.messages ++
        sent ((machine hash params Body RelayHash RuntimeVersion InherentData Collation
          CodeHash).event s n) ∧
      Sends hash params n (sent ((machine hash params Body RelayHash RuntimeVersion InherentData
        Collation CodeHash).event s n)) := by
  have hsent : sent ((machine hash params Body RelayHash RuntimeVersion InherentData Collation
    CodeHash).event s n) = (handle hash params n s).2.messages.drop s.messages.length := rfl
  rw [hsent]
  rcases handle_cases n s with
    ⟨-, hsame⟩ | ⟨target, best, ms, bs, htarget, -, hupdate, hbuilt, hms⟩
  · rw [hsame, List.drop_length, List.append_nil]
    exact ⟨rfl, .inl rfl⟩
  · rw [hms, List.drop_left]
    exact ⟨rfl, .inr ⟨target, best, _, _, bs, htarget, hbuilt, by rw [hupdate.sent]⟩⟩

variable {allow : List (RunEvent Hash Body RelayHash RuntimeVersion InherentData Collation CodeHash)
    → State RelayHash Hash Collation CodeHash →
      Notification Hash Body RelayHash RuntimeVersion InherentData Collation CodeHash → Prop}
  {h : List (RunEvent Hash Body RelayHash RuntimeVersion InherentData Collation CodeHash)}
  {s : State RelayHash Hash Collation CodeHash}

theorem messages_of_run (hr : (machine hash params Body RelayHash RuntimeVersion InherentData
    Collation CodeHash).Run allow h s) :
    s.messages = h.reverse.flatMap sent ∧ ∀ e ∈ h, Sends hash params e.op (sent e) := by
  induction hr with
  | start h0 => simp [show _ = _ from h0]
  | @step h s n hr ha ih =>
    obtain ⟨hmessages, hsends⟩ := sent_spec n s
    constructor
    · rw [List.reverse_cons, List.flatMap_append, ← ih.1, List.flatMap_singleton]
      exact hmessages
    · rintro e (_ | ⟨_, he⟩)
      exacts [hsends, ih.2 e he]

/-- **Submissions.** In every run the messages are those for one relay block after the other. Each
relay block has none, or a message about the connection, if any, and then, for at most two allowed
blocks that build on each other from the parent found, the announcement and the submission. -/
theorem submissions_of_run (hr : (machine hash params Body RelayHash RuntimeVersion InherentData
    Collation CodeHash).Run allow h s) :
    s.messages = h.reverse.flatMap sent ∧ ∀ e ∈ h, sent e ≠ [] →
      ∃ target best before after, ∃ bs : List (Built Hash Collation CodeHash),
        Targets hash params e.op target best ∧
        sent e = connectionChange before after ++ bs.flatMap (Built.messages hash e.op target) ∧
        bs.length ≤ 2 ∧ (∀ b ∈ bs.head?, b.parent = best) ∧
        bs.IsChain (fun b next => next.parent = b.header) ∧
        ∀ b ∈ bs, b.Allowed hash params e.op target := by
  obtain ⟨hmessages, hsends⟩ := messages_of_run hr
  refine ⟨hmessages, fun e he hsent => ?_⟩
  obtain ⟨target, best, before, after, bs, htarget, hbuilt, hms⟩ := (hsends e he).resolve_left hsent
  exact ⟨target, best, before, after, bs, htarget, hms, hbuilt.chain⟩

omit [DecidableEq Hash] [DecidableEq RuntimeVersion] in
theorem changes_connectionChange (before after : Bool) :
    changes (connectionChange before after : List (Message RelayHash Hash Collation CodeHash))
      = if after = before then [] else [after] := by
  rcases before with _ | _ <;> rcases after with _ | _ <;> rfl

omit [DecidableEq Hash] [DecidableEq RuntimeVersion] in
theorem changes_built
    (n : Notification Hash Body RelayHash RuntimeVersion InherentData Collation CodeHash)
    (target : Target Hash) (bs : List (Built Hash Collation CodeHash)) :
    changes (bs.flatMap (Built.messages hash n target)) = [] := by
  induction bs with
  | nil => rfl
  | cons b bs ih => exact ih

/-- An alternating list goes on alternating with another value than its last. -/
theorem alternates_append {l : List Bool} {before : Bool} (after : Bool)
    (hchain : l.IsChain (· ≠ ·)) (hlast : l.getLast? = some before) :
    (l ++ if after = before then [] else [after]).IsChain (· ≠ ·) ∧
      (l ++ if after = before then [] else [after]).getLast? = some after := by
  split_ifs with hsame
  · rw [List.append_nil, hsame]
    exact ⟨hchain, hlast⟩
  · refine ⟨List.isChain_append.2 ⟨hchain, List.isChain_singleton _, ?_⟩, by simp⟩
    intro x hx y hy
    rw [hlast, Option.mem_some_iff] at hx
    rw [List.head?_cons, Option.mem_some_iff] at hy
    subst hx hy
    exact fun heq => hsame heq.symm

/-- **Connections.** In every run the helper knows the slot of the newest handled relay block, the
node is connected if it had keys at the newest handled relay block of a new slot, and the messages
connect and disconnect in turns. -/
theorem connection_follows_keys (hr : (machine hash params Body RelayHash RuntimeVersion
    InherentData Collation CodeHash).Run allow h s) :
    s.connection.lastSlot = lastHandled params (h.map Machine.Event.op) ∧
      s.connection.connected = keysAtNewSlot params (h.map Machine.Event.op) ∧
      (false :: changes s.messages).IsChain (· ≠ ·) ∧
      (false :: changes s.messages).getLast? = some s.connection.connected := by
  induction hr with
  | start h0 =>
    obtain rfl := h0
    exact ⟨rfl, rfl, List.isChain_singleton _, rfl⟩
  | @step h s n hr ha ih =>
    obtain ⟨hslot, hkeys, hchain, hlast⟩ := ih
    have hafter : ((machine hash params Body RelayHash RuntimeVersion InherentData Collation
      CodeHash).exec s n).2 = (handle hash params n s).2 := rfl
    simp only [List.map_cons, Machine.event, hafter, lastHandled_cons, keysAtNewSlot]
    rcases handle_cases n s with
      ⟨hnone, hsame⟩ | ⟨target, best, ms, bs, -, hsome, hupdate, -, hms⟩
    · rw [hsame, hnone]
      exact ⟨hslot, hkeys, hchain, hlast⟩
    · rw [hms, changes, List.filterMap_append, List.filterMap_append]
      change _ ∧ _ ∧ (false :: (changes s.messages ++ (changes ms ++ changes _))).IsChain _ ∧
        (false :: (changes s.messages ++ (changes ms ++ changes _))).getLast? = _
      rw [changes_built, List.append_nil, hupdate.sent, changes_connectionChange,
        ← List.cons_append, hsome]
      refine ⟨hupdate.lastSlot, ?_, alternates_append _ hchain hlast⟩
      simp only [hupdate.connected, hslot, hkeys]

/-- A node that proposes, signs and packs everything. -/
def sampleNode (keystore : KeystoreKeys) : Node ℕ Unit ℕ ℕ Unit ℕ ℕ where
  keystore := keystore
  paraClient := ⟨fun _ => .ok 1, fun _ _ _ _ => .ok true⟩
  unincludedSegment := ⟨fun _ => .ok (some (.lit 1)), fun _ _ _ => .ok true⟩
  collator :=
    ⟨fun parent _ digest =>
        .ok ⟨{ parent with parentHash := 0, number := parent.number + 1, digest := digest }, ()⟩,
      fun _ _ => .ok (some (Bytes.encode (Vector.replicate 64 0))), fun _ => .ok ()⟩
  createInherentData _ _ _ _ _ := .ok ()
  codeHashAt _ := some 5
  provideDigests _ _ := []
  buildCollation _ _ block := some (block.header.number, [block])

def sampleParams : Params := ⟨.lit 1, false, none, none⟩

/-- A relay block of this slot: the second core is for the parachain, and a parent is found. -/
def sampleNotification (slot : Slot) (node : Node ℕ Unit ℕ ℕ Unit ℕ ℕ) :
    Notification ℕ Unit ℕ ℕ Unit ℕ ℕ where
  relayParent := ⟨11, .lit 5, .replicate 32 0⟩
  availabilityCores := .ok [.free, .scheduled (.lit 1)]
  maxCandidateDepth := none
  maxPovSize := .ok (some (.lit 100))
  relaySlotAndTimestamp := some (slot, .lit 0)
  findParentForBuilding := .ok (some (⟨0, 1, 0, 0, []⟩, ⟨0, 1, 0, 0, []⟩))
  node := node

/-- The node has a key at first, and none any more at two more relay blocks, the first of which has
no new slot. -/
def sampleNotifications : List (Notification ℕ Unit ℕ ℕ Unit ℕ ℕ) :=
  [sampleNotification (.lit 7) (sampleNode (.ok [Bytes.encode (Vector.replicate 32 1)])),
    sampleNotification (.lit 7) (sampleNode (.ok [])),
    sampleNotification (.lit 8) (sampleNode (.ok []))]

abbrev sampleMachine := machine (fun _ : Header ℕ => (0 : ℕ)) sampleParams Unit ℕ ℕ Unit ℕ ℕ

theorem sampleMachine_run : sampleMachine.Run (fun _ _ _ => True)
    (sampleMachine.replay [] ⟨⟨none, false⟩, []⟩ sampleNotifications).1
    (sampleMachine.replay [] ⟨⟨none, false⟩, []⟩ sampleNotifications).2 :=
  Machine.run_replay_all sampleNotifications (.start rfl)

theorem submissions_of_run_sampled :
    (sampleMachine.replay [] ⟨⟨none, false⟩, []⟩ sampleNotifications).2.messages
        = (sampleMachine.replay [] ⟨⟨none, false⟩, []⟩ sampleNotifications).1.reverse.flatMap sent ∧
      ∃ e ∈ (sampleMachine.replay [] ⟨⟨none, false⟩, []⟩ sampleNotifications).1,
        ∃ target best before after, ∃ bs : List (Built ℕ ℕ ℕ),
          Targets (fun _ => 0) sampleParams e.op target best ∧
          sent e = connectionChange before after
            ++ bs.flatMap (Built.messages (fun _ => 0) e.op target) ∧
          bs.length ≤ 2 ∧ (∀ b ∈ bs.head?, b.parent = best) ∧
          bs.IsChain (fun b next => next.parent = b.header) ∧
          ∀ b ∈ bs, b.Allowed (fun _ => 0) sampleParams e.op target :=
  ⟨(submissions_of_run sampleMachine_run).1, _, List.mem_of_getLast? rfl,
    (submissions_of_run sampleMachine_run).2 _ (List.mem_of_getLast? rfl) (by decide)⟩

theorem connection_follows_keys_sampled :
    (sampleMachine.replay [] ⟨⟨none, false⟩, []⟩ sampleNotifications).2.connection.lastSlot
        = some (.lit 8) ∧
      (sampleMachine.replay [] ⟨⟨none, false⟩, []⟩ sampleNotifications).2.connection.connected
        = false ∧
      (false :: changes (sampleMachine.replay [] ⟨⟨none, false⟩, []⟩
        sampleNotifications).2.messages).IsChain (· ≠ ·) ∧
      (false :: changes (sampleMachine.replay [] ⟨⟨none, false⟩, []⟩
        sampleNotifications).2.messages).getLast? = some false := by
  obtain ⟨hslot, hkeys, hchain, hlast⟩ := connection_follows_keys sampleMachine_run
  have hnow : keysAtNewSlot sampleParams ((sampleMachine.replay [] ⟨⟨none, false⟩, []⟩
    sampleNotifications).1.map Machine.Event.op) = false := by decide
  rw [hkeys, hnow] at hlast
  exact ⟨hslot.trans (by decide), hkeys.trans hnow, hchain, hlast⟩

end Runs

end Lookahead

end Moonkit
