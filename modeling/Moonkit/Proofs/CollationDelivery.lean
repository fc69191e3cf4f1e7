import Moonkit.Base.Queue
import Moonkit.Proofs.LookaheadSubmissions
import Moonkit.SlotBasedCollator

/-!
# Delivery of collations

A pass of the block builder sends at most one block, and first announces it. However the two tasks
take turns, the collation task gets the blocks that were sent in the order in which they were sent,
each of them once, and submits those that it can pack. After the end of the builder it gets all that
still wait and then ends.
-/

namespace Moonkit

namespace SlotBasedCollator

open BlockBuilder (CumulusDigest)
open NimbusConsensus (KeystoreKeys Block)
open Lookahead (Message SubmitCollationParams connectionChange updateConnection_apply)

variable {Hash Body RelayHash RuntimeVersion InherentData Collation CodeHash : Type}
  [DecidableEq Hash] [DecidableEq RelayHash] [DecidableEq RuntimeVersion]
  {hash : Header Hash → Hash} {D : CumulusDigest RelayHash} {V : RelayHeaderFields RelayHash}
  {P : Params} {overflowChecks : Bool}

section Passes

/-- The message for a block that was built at the spot. -/
def messageOf (spot : Spot Hash RelayHash) (built : Block Hash Body × CodeHash) :
    CollatorMessage Hash Body RelayHash CodeHash :=
  ⟨spot.rpData.relayParent.hash, spot.parentHeader, built.1, built.2, spot.core.coreIndex,
    spot.relayChainData.maxPovSize⟩

omit [DecidableEq Hash] [DecidableEq RelayHash] [DecidableEq RuntimeVersion] in
theorem connect_apply (keystore : KeystoreKeys) (slot : Slot)
    (s : State Hash Body RelayHash Collation CodeHash) : ∃ c before after,
      connect keystore slot s = (.ok (), { s with
        builder := { s.builder with connection := c }
        messages := s.messages ++ connectionChange before after }) := by
  obtain ⟨c, ms, hupdate, hms⟩ := updateConnection_apply keystore slot s.helper
  refine ⟨c, s.builder.connection.connected, c.connected, ?_⟩
  unfold connect
  rw [Call.on_apply (Call.handle_ok hupdate), hms.sent]
  rfl

variable (hash D V P overflowChecks) in
/-- What a pass does to the rest of the state: it ends early, or it builds a block at the spot it
chose, announces it and sends it where somebody receives. -/
theorem pass_cases (p : Pass Hash Body RelayHash RuntimeVersion InherentData CodeHash)
    (s : State Hash Body RelayHash Collation CodeHash) :
    (∃ r b ms, (ms = [] ∨ ∃ before after, ms = connectionChange before after) ∧ r ≠ .ok () ∧
      pass hash D V P overflowChecks p s
        = (r, { s with builder := b, messages := s.messages ++ ms })) ∨
    ∃ spot built b b₁ before after, chooseSpot D V P overflowChecks p s.builder = (.ok spot, b₁) ∧
      produce hash V P overflowChecks p b₁.timer spot = .ok built ∧
      pass hash D V P overflowChecks p s = if s.collating then
        (.ok (), { s with
          builder := b
          messages := s.messages ++
            (connectionChange before after ++ [.announceBlock (hash built.1.header)])
          queue := s.queue ++ [messageOf spot built] })
      else (.err .ends, { s with
        builder := b
        messages := s.messages ++
          (connectionChange before after ++ [.announceBlock (hash built.1.header)]) }) := by
  unfold pass
  rcases hspot : chooseSpot D V P overflowChecks p s.builder with ⟨spot | e | m, b₁⟩
  · rw [Call.bind_ok (Call.on_apply hspot)]
    obtain ⟨c, before, after, hconnect⟩ := connect_apply p.keystore spot.paraSlot.slot
      { s with builder := b₁ }
    rw [Call.bind_ok hconnect, Call.get_bind]
    rcases hbuilt : produce hash V P overflowChecks p b₁.timer spot with built | e | m
    · right
      refine ⟨spot, built, recordClaim spot { b₁ with connection := c }, b₁, before, after, rfl,
        hbuilt, ?_⟩
      rw [Call.bind_ok (rfl : (Call.lift _ : TaskCall _ _ _ _ _ _) _ = (.ok built, _))]
      unfold sendMsg
      rw [Call.modify_bind, Call.modify_bind]
      unfold unboundedSend
      rw [Call.get_bind]
      rcases hcollating : s.collating with _ | _
      · simp only [Bool.false_eq_true, if_false, List.append_assoc]
        rfl
      · simp only [if_true, List.append_assoc]
        rfl
    · exact .inl ⟨.err e, _, _, .inr ⟨before, after, rfl⟩, by simp, rfl⟩
    · exact .inl ⟨.panic m, _, _, .inr ⟨before, after, rfl⟩, by simp, rfl⟩
  · rw [Call.bind_err (Call.on_apply hspot)]
    exact .inl ⟨.err e, b₁, [], .inl rfl, by simp, by simp⟩
  · rw [Call.bind_panic (Call.on_apply hspot)]
    exact .inl ⟨.panic m, b₁, [], .inl rfl, by simp, by simp⟩

end Passes

section Steps

/-- The collation of a message, as it is submitted. -/
def submission (hash : Header Hash → Hash) (buildCollation : BuildCollation Hash Body Collation)
    (m : CollatorMessage Hash Body RelayHash CodeHash) :
    Option (SubmitCollationParams RelayHash Hash Collation CodeHash) :=
  (buildCollation m.parentHeader (hash m.parachainCandidate.header) m.parachainCandidate).map
    fun collation => ⟨m.relayParent, collation.1, m.parentHeader, m.validationCodeHash, m.coreIndex⟩

variable (hash D V P overflowChecks)

/-- The message is of the block that the pass of the builder `b` built at the spot it chose. -/
def Produced (p : Pass Hash Body RelayHash RuntimeVersion InherentData CodeHash)
    (b : Builder RelayHash) (m : CollatorMessage Hash Body RelayHash CodeHash) : Prop :=
  ∃ spot built b₁, chooseSpot D V P overflowChecks p b = (.ok spot, b₁) ∧
    produce hash V P overflowChecks p b₁.timer spot = .ok built ∧ m = messageOf spot built

/-- What an operation may make of a state. -/
inductive Steps : Op Hash Body RelayHash RuntimeVersion InherentData Collation CodeHash →
    State Hash Body RelayHash Collation CodeHash → State Hash Body RelayHash Collation CodeHash →
    Prop
  | quiet {op : Op Hash Body RelayHash RuntimeVersion InherentData Collation CodeHash}
      {s : State Hash Body RelayHash Collation CodeHash} (b : Builder RelayHash) {building : Bool}
      {ms : List (Message RelayHash Hash Collation CodeHash)} :
      (building = true → s.building = true) →
      (ms = [] ∨ ∃ before after, ms = connectionChange before after) →
      (∀ build, op = .receive build → s.collating = false ∨ s.queue = [] ∧ s.building = true) →
      Steps op s { s with builder := b, building := building, messages := s.messages ++ ms }
  | sends {p : Pass Hash Body RelayHash RuntimeVersion InherentData CodeHash}
      {s : State Hash Body RelayHash Collation CodeHash} (b : Builder RelayHash)
      (before after : Bool) {m : CollatorMessage Hash Body RelayHash CodeHash} :
      s.building = true → s.collating = true → Produced hash D V P overflowChecks p s.builder m →
      Steps (.pass p) s { s with
        builder := b
        messages := s.messages ++ (connectionChange before after ++
          [.announceBlock (hash m.parachainCandidate.header)])
        queue := s.queue ++ [m] }
  | unheard {p : Pass Hash Body RelayHash RuntimeVersion InherentData CodeHash}
      {s : State Hash Body RelayHash Collation CodeHash} (b : Builder RelayHash)
      (before after : Bool) (blockHash : Hash) : s.building = true → s.collating = false →
      Steps (.pass p) s { s with
        builder := b
        building := false
        messages := s.messages ++ (connectionChange before after ++ [.announceBlock blockHash]) }
  | receives {build : BuildCollation Hash Body Collation}
      {s : State Hash Body RelayHash Collation CodeHash}
      {m : CollatorMessage Hash Body RelayHash CodeHash}
      {queue : List (CollatorMessage Hash Body RelayHash CodeHash)} : s.collating = true →
      s.queue = m :: queue →
      Steps (.receive build) s { s with
        queue := queue
        messages := s.messages ++ (submission hash build m).toList.map .submitCollation }
  | finishes {build : BuildCollation Hash Body Collation}
      {s : State Hash Body RelayHash Collation CodeHash} : s.queue = [] → s.building = false →
      Steps (.receive build) s { s with collating := false }

variable {hash D V P overflowChecks}

/-- An operation that leaves the state as it is. -/
theorem Steps.none {op : Op Hash Body RelayHash RuntimeVersion InherentData Collation CodeHash}
    {s : State Hash Body RelayHash Collation CodeHash}
    (hop : ∀ build, op = .receive build → s.collating = false ∨ s.queue = [] ∧ s.building = true) :
    Steps hash D V P overflowChecks op s s := by
  have hs : s = { s with
      builder := s.builder, building := s.building, messages := s.messages ++ [] } := by
    rw [List.append_nil]
  nth_rewrite 2 [hs]
  exact .quiet s.builder (fun hb => hb) (.inl rfl) hop

theorem pass_steps (p : Pass Hash Body RelayHash RuntimeVersion InherentData CodeHash)
    {s : State Hash Body RelayHash Collation CodeHash} (hb : s.building = true) :
    Steps hash D V P overflowChecks (.pass p) s
      ((Op.pass p).run hash D V P overflowChecks s).2 := by
  simp only [Op.run, if_pos hb]
  rcases pass_cases hash D V P overflowChecks p s with ⟨r, b, ms, hms, hr, hpass⟩ |
      ⟨spot, built, b, b₁, before, after, hspot, hbuilt, hpass⟩
  · rw [hpass]
    rcases r with _ | (_ | _) | m
    · exact absurd rfl hr
    · exact .quiet b (fun h => h) hms (by simp)
    · exact .quiet b Bool.noConfusion hms (by simp)
    · exact .quiet b Bool.noConfusion hms (by simp)
  · rw [hpass]
    by_cases hc : s.collating = true
    · rw [if_pos hc]
      exact .sends b before after hb hc ⟨spot, built, b₁, hspot, hbuilt, rfl⟩
    · rw [if_neg hc]
      exact .unheard b before after _ hb (Bool.not_eq_true _ ▸ hc)

theorem receive_steps (build : BuildCollation Hash Body Collation)
    (s : State Hash Body RelayHash Collation CodeHash) :
    Steps hash D V P overflowChecks
      (.receive build : Op Hash Body RelayHash RuntimeVersion InherentData Collation CodeHash) s
      ((Op.receive build : Op Hash Body RelayHash RuntimeVersion InherentData Collation
        CodeHash).run hash D V P overflowChecks s).2 := by
  simp only [Op.run]
  split_ifs with hc
  · unfold receive
    rw [Call.get_bind]
    rcases hq : s.queue with _ | ⟨m, queue⟩
    · rcases hb : s.building with _ | _
      · simp only [Bool.false_eq_true, if_false]
        exact .finishes hq hb
      · simp only [if_true]
        exact .none fun _ _ => .inr ⟨hq, hb⟩
    · simp only [Call.modify_bind]
      unfold handleCollationMessage
      have hsteps : Steps hash D V P overflowChecks (.receive build : Op Hash Body RelayHash
        RuntimeVersion InherentData Collation CodeHash) s _ := .receives hc hq
      unfold submission at hsteps
      rcases hbuild : build m.parentHeader (hash m.parachainCandidate.header) m.parachainCandidate
        with _ | ⟨collation, blockData⟩
      · simpa [hbuild] using hsteps
      · simpa [hbuild, sendMsg] using hsteps
  · exact .none fun _ _ => .inl (by simpa using hc)

variable (hash D V P overflowChecks) in
theorem run_steps (op : Op Hash Body RelayHash RuntimeVersion InherentData Collation CodeHash)
    (s : State Hash Body RelayHash Collation CodeHash) :
    Steps hash D V P overflowChecks op s (op.run hash D V P overflowChecks s).2 := by
  cases op with
  | pass p =>
    by_cases hb : s.building = true
    · exact pass_steps p hb
    · simp only [Op.run, if_neg hb]
      exact .none (by simp)
  | receive build => exact receive_steps build s
  | blockImport block => exact .none (by simp)

end Steps

section Runs

/-- What an event added to the channel. -/
def sent (e : RunEvent Hash Body RelayHash RuntimeVersion InherentData Collation CodeHash) :
    List (CollatorMessage Hash Body RelayHash CodeHash) :=
  e.after.queue.drop e.before.queue.length

/-- What an event took from the channel. -/
def received (e : RunEvent Hash Body RelayHash RuntimeVersion InherentData Collation CodeHash) :
    List (CollatorMessage Hash Body RelayHash CodeHash) :=
  e.before.queue.take (e.before.queue.length - e.after.queue.length)

/-- The collations that the messages received in an operation make. -/
def Op.submissions (hash : Header Hash → Hash)
    (ms : List (CollatorMessage Hash Body RelayHash CodeHash)) :
    Op Hash Body RelayHash RuntimeVersion InherentData Collation CodeHash →
      List (SubmitCollationParams RelayHash Hash Collation CodeHash)
  | .receive build => ms.filterMap (submission hash build)
  | _ => []

def Op.isReceive : Op Hash Body RelayHash RuntimeVersion InherentData Collation CodeHash → Bool
  | .receive _ => true
  | _ => false

def announcement : Message RelayHash Hash Collation CodeHash → Option Hash
  | .announceBlock blockHash => some blockHash
  | _ => none

omit [DecidableEq Hash] [DecidableEq RelayHash] [DecidableEq RuntimeVersion] in
theorem filterMap_connectionChange {α : Type}
    {f : Message RelayHash Hash Collation CodeHash → Option α}
    (hconnect : f .connectToBackingGroups = none)
    (hdisconnect : f .disconnectFromBackingGroups = none) (before after : Bool) :
    (connectionChange before after).filterMap f = [] := by
  rcases before with _ | _ <;> rcases after with _ | _ <;>
    simp [connectionChange, hconnect, hdisconnect]

variable {op : Op Hash Body RelayHash RuntimeVersion InherentData Collation CodeHash}
  {s s' : State Hash Body RelayHash Collation CodeHash}

theorem Steps.fifo (hs : Steps hash D V P overflowChecks op s s') :
    s.queue ++ s'.queue.drop s.queue.length
      = s.queue.take (s.queue.length - s'.queue.length) ++ s'.queue := by
  cases hs with
  | quiet => simp
  | sends => simp
  | unheard => simp
  | receives hc hq => simp [hq]
  | finishes => simp

theorem Steps.submissions (hs : Steps hash D V P overflowChecks op s s') :
    s'.messages.filterMap Message.submission = s.messages.filterMap Message.submission ++
      op.submissions hash (s.queue.take (s.queue.length - s'.queue.length)) := by
  have hquiet : ∀ ms : List (Message RelayHash Hash Collation CodeHash),
      (ms = [] ∨ ∃ before after, ms = connectionChange before after) →
        ms.filterMap Message.submission = [] := by
    rintro ms (rfl | ⟨before, after, rfl⟩)
    · rfl
    · exact filterMap_connectionChange rfl rfl before after
  have hnothing : op.submissions hash [] = [] := by cases op <;> rfl
  cases hs with
  | quiet b hb hms hop => simp [hquiet _ hms, hnothing]
  | sends b before after =>
    simp [hquiet _ (.inr ⟨before, after, rfl⟩), Message.submission, Op.submissions]
  | unheard b before after =>
    simp [hquiet _ (.inr ⟨before, after, rfl⟩), Message.submission, Op.submissions]
  | @receives build s m queue hc hq =>
    rcases hm : submission hash build m with _ | params <;>
      simp [hq, Op.submissions, hm, Message.submission]
  | finishes hq hb => simp [hnothing]

variable {allow : List (RunEvent Hash Body RelayHash RuntimeVersion InherentData Collation CodeHash)
    → State Hash Body RelayHash Collation CodeHash →
      Op Hash Body RelayHash RuntimeVersion InherentData Collation CodeHash → Prop}
  {h : List (RunEvent Hash Body RelayHash RuntimeVersion InherentData Collation CodeHash)}

theorem messages_fifo (hr : (machine hash D V P overflowChecks Body RuntimeVersion InherentData
    Collation CodeHash).Run allow h s) :
    h.reverse.flatMap sent = h.reverse.flatMap received ++ s.queue := by
  refine hr.fifo ?_ ?_
  · rintro _ ⟨building, collating, rfl⟩
    rfl
  · exact fun s op => (run_steps hash D V P overflowChecks op s).fifo

/-- A block that is sent was built and announced in a pass, and each pass sends at most one. -/
theorem Steps.sent (hs : Steps hash D V P overflowChecks op s s') :
    s'.queue.drop s.queue.length = [] ∨ ∃ p m, op = .pass p ∧ s.collating = true ∧
      s.building = true ∧ Produced hash D V P overflowChecks p s.builder m ∧
      s'.queue.drop s.queue.length = [m] := by
  cases hs with
  | quiet => simp
  | @sends p s b before after m hb hc hm => exact .inr ⟨p, m, rfl, hc, hb, hm, by simp⟩
  | unheard => simp
  | receives hc hq => simp [hq]
  | finishes => simp

/-- The blocks announced are those of `ms`, unless nobody ever receives. -/
structure Heard (hash : Header Hash → Hash)
    (ms : List (CollatorMessage Hash Body RelayHash CodeHash))
    (s : State Hash Body RelayHash Collation CodeHash) : Prop where
  announced : s.messages.filterMap announcement = ms.map (fun m => hash m.parachainCandidate.header)
    ∨ ms = [] ∧ s.collating = false ∧ s.building = false
  nobody : s.collating = false → s.building = true → ms = []

theorem Steps.heard (hs : Steps hash D V P overflowChecks op s s')
    {ms : List (CollatorMessage Hash Body RelayHash CodeHash)} (hi : Heard hash ms s) :
    Heard hash (ms ++ s'.queue.drop s.queue.length) s' := by
  obtain ⟨hannounced, hnobody⟩ := hi
  have hquiet : ∀ l : List (Message RelayHash Hash Collation CodeHash),
      (l = [] ∨ ∃ before after, l = connectionChange before after) →
        l.filterMap announcement = [] := by
    rintro l (rfl | ⟨before, after, rfl⟩)
    · rfl
    · exact filterMap_connectionChange rfl rfl before after
  cases hs with
  | @quiet op s b building l hb hl hop =>
    simp only [List.drop_length, List.append_nil]
    refine ⟨?_, fun hc hb' => hnobody hc (hb hb')⟩
    rw [List.filterMap_append, hquiet l hl, List.append_nil]
    refine hannounced.imp_right fun ⟨hnone, hc, hended⟩ => ⟨hnone, hc, ?_⟩
    rcases building with _ | _
    · rfl
    · rw [hb rfl] at hended
      cases hended
  | @sends p s b before after m hb hc hm =>
    have hrest : (s.queue ++ [m]).drop s.queue.length = [m] := List.drop_left
    refine ⟨.inl ?_, fun hc' => absurd (hc.symm.trans hc') Bool.noConfusion⟩
    rw [hrest, List.filterMap_append, List.filterMap_append,
      hquiet _ (.inr ⟨before, after, rfl⟩), List.map_append,
      hannounced.resolve_right fun hnone => by simp [hc] at hnone]
    rfl
  | unheard b before after blockHash hb hc =>
    simp only [List.drop_length, List.append_nil]
    exact ⟨.inr ⟨hnobody hc hb, hc, rfl⟩, fun _ => Bool.noConfusion⟩
  | @receives build s m queue hc hq =>
    have hrest : queue.drop s.queue.length = [] := by simp [hq]
    have hsubmits : ((submission hash build m).toList.map
      (.submitCollation : _ → Message RelayHash Hash Collation CodeHash)).filterMap announcement
        = [] := by
      rcases submission hash build m with _ | params <;> rfl
    refine ⟨.inl ?_, fun hc' => absurd (hc.symm.trans hc') Bool.noConfusion⟩
    rw [hrest, List.append_nil, List.filterMap_append, hsubmits, List.append_nil,
      hannounced.resolve_right fun hnone => by simp [hc] at hnone]
  | finishes hq hb =>
    simp only [List.drop_length, List.append_nil]
    refine ⟨hannounced.imp_right fun hnone => ⟨hnone.1, rfl, hb⟩, fun _ hb' => ?_⟩
    rw [hb] at hb'
    cases hb'

theorem heard_of_run (hr : (machine hash D V P overflowChecks Body RuntimeVersion InherentData
    Collation CodeHash).Run allow h s) : Heard hash (h.reverse.flatMap sent) s := by
  induction hr with
  | start h0 =>
    obtain ⟨building, collating, rfl⟩ := h0
    exact ⟨.inl rfl, fun _ _ => rfl⟩
  | @step h s op _ _ ih =>
    rw [List.reverse_cons, List.flatMap_append, List.flatMap_singleton]
    exact (run_steps hash D V P overflowChecks op s).heard ih

theorem submitted_of_run (hr : (machine hash D V P overflowChecks Body RuntimeVersion InherentData
    Collation CodeHash).Run allow h s) : s.messages.filterMap Message.submission
      = h.reverse.flatMap (fun e => e.op.submissions hash (received e)) := by
  induction hr with
  | start h0 =>
    obtain ⟨building, collating, rfl⟩ := h0
    rfl
  | @step h s op _ _ ih =>
    rw [List.reverse_cons, List.flatMap_append, List.flatMap_singleton, ← ih]
    exact (run_steps hash D V P overflowChecks op s).submissions

theorem sent_of_run (hr : (machine hash D V P overflowChecks Body RuntimeVersion InherentData
    Collation CodeHash).Run allow h s) : ∀ e ∈ h, sent e = [] ∨ ∃ p m, e.op = .pass p ∧
      sent e = [m] ∧ Produced hash D V P overflowChecks p e.before.builder m := by
  intro e he
  obtain ⟨h', -, -, hevent⟩ := hr.mem_event he
  rw [hevent]
  rcases (run_steps hash D V P overflowChecks e.op e.before).sent with
    hnone | ⟨p, m, hop, -, -, hm, hsent⟩
  · exact .inl hnone
  · exact .inr ⟨p, m, hop, hsent, hm⟩

/-- **In order.** However the tasks take turns, what was sent was received in order, each message
once, or waits; each pass sends at most one block, that it built and announced; and what was
submitted is what the collation task could pack of what it received. Unless it never ran, every
block announced is sent. -/
theorem collations_in_order (hr : (machine hash D V P overflowChecks Body RuntimeVersion
    InherentData Collation CodeHash).Run allow h s) :
    h.reverse.flatMap sent = h.reverse.flatMap received ++ s.queue ∧
    s.messages.filterMap Message.submission
      = h.reverse.flatMap (fun e => e.op.submissions hash (received e)) ∧
    (∀ e ∈ h, sent e = [] ∨ ∃ p m, e.op = .pass p ∧ sent e = [m] ∧
      Produced hash D V P overflowChecks p e.before.builder m) ∧
    (s.messages.filterMap announcement
        = (h.reverse.flatMap sent).map (fun m => hash m.parachainCandidate.header) ∨
      h.reverse.flatMap sent = [] ∧ s.collating = false) := by
  refine ⟨messages_fifo hr, submitted_of_run hr, sent_of_run hr, ?_⟩
  exact (heard_of_run hr).announced.imp_right fun hnone => ⟨hnone.1, hnone.2.1⟩

end Runs

section Samples

def sampleFields : RelayHeaderFields ℕ where
  parentHash _ := 0
  containsEpochChange _ := false
  number _ := .lit 5
  babeSlot _ := some (.lit 7)

def sampleParams : Params where
  paraId := .lit 1
  authoringDuration := SlotBased.millis 2000
  relayChainSlotDuration := SlotBased.millis 6000
  paraSlotDuration := none
  slotOffset := 0
  maxPovPercentage := none
  forceAuthoring := false

/-- A pass on a relay block with one core, where the parent is the included block. Everything is
proposed and signed; the code of the parent is known or not. -/
def samplePass (keys : List (List UInt8)) (paraClient : NimbusConsensus.ParaClient ℕ ℕ)
    (code : Option ℕ) : Pass ℕ Unit ℕ ℕ Unit ℕ where
  timeNow := SlotBased.millis 42000
  timeAuthoring := (SlotBased.millis 48000, SlotBased.millis 48000)
  bestBlockHash := some 11
  relayParentOffset := none
  relayClient := ⟨fun _ => some fun _ _ => [.lit 10],
    fun relayHash => some ⟨relayHash, .replicate 32 0⟩, fun _ => some (.lit 100)⟩
  findParentForBuilding _ := .ok (some (⟨0, 0, 0, 0, []⟩, ⟨0, 0, 0, 0, []⟩))
  keystore := .ok keys
  paraClient := paraClient
  unincludedSegment := ⟨fun _ => .ok (some (.lit 1)), fun _ _ _ => .ok true⟩
  collator :=
    ⟨fun parent _ digest =>
        .ok ⟨{ parent with parentHash := 0, number := parent.number + 1, digest := digest }, ()⟩,
      fun _ _ => .ok (some (Bytes.encode (Vector.replicate 64 0))), fun _ => .ok ()⟩
  createInherentData _ _ _ _ _ := .ok ()
  codeHashAt _ := code
  provideDigests _ _ := []

abbrev sampleMachine := machine (fun _ : Header ℕ => (0 : ℕ))
  (⟨fun _ => none, fun _ => none, fun _ => none⟩ : CumulusDigest ℕ) sampleFields sampleParams false
  Unit ℕ Unit ℕ ℕ

/-- A pass that builds a block, and one that finds no code and ends the builder. -/
def samplePasses : List (Op ℕ Unit ℕ ℕ Unit ℕ ℕ) :=
  [.pass (samplePass [Bytes.encode (Vector.replicate 32 1)]
      ⟨fun _ => .ok 1, fun _ _ _ _ => .ok true⟩ (some 5)),
    .pass (samplePass [Bytes.encode (Vector.replicate 32 1)]
      ⟨fun _ => .ok 1, fun _ _ _ _ => .ok true⟩ none)]

theorem samplePasses_run : sampleMachine.Run (fun _ _ _ => True)
    (sampleMachine.replay [] (.initial sampleParams true true) samplePasses).1
    (sampleMachine.replay [] (.initial sampleParams true true) samplePasses).2 :=
  Machine.run_replay_all samplePasses (.start ⟨true, true, rfl⟩)

/-- A collation task that packs everything looks for a message twice. -/
def sampleReceives : List (Op ℕ Unit ℕ ℕ Unit ℕ ℕ) :=
  List.replicate 2 (.receive fun _ _ block => some (block.header.number, [block]))

/-- The passes, and then the task that receives what they sent. -/
abbrev sampleDelivery := sampleMachine.replay [] (.initial sampleParams true true)
  (samplePasses ++ sampleReceives)

theorem sampleDelivery_run : sampleMachine.Run (fun _ _ _ => True) sampleDelivery.1
    sampleDelivery.2 :=
  Machine.run_replay_all (samplePasses ++ sampleReceives) (.start ⟨true, true, rfl⟩)

theorem collations_in_order_sampled :
    sampleDelivery.1.reverse.flatMap sent
        = sampleDelivery.1.reverse.flatMap received ++ sampleDelivery.2.queue ∧
      sampleDelivery.2.messages.filterMap Message.submission
        = sampleDelivery.1.reverse.flatMap (fun e => e.op.submissions (fun _ => 0) (received e)) ∧
      (∃ e ∈ sampleDelivery.1, ∃ p m, e.op = .pass p ∧ sent e = [m] ∧
        Produced (fun _ => 0) ⟨fun _ => none, fun _ => none, fun _ => none⟩ sampleFields
          sampleParams false p e.before.builder m) ∧
      sampleDelivery.2.messages.filterMap announcement
        = (sampleDelivery.1.reverse.flatMap sent).map (fun _ => 0) := by
  obtain ⟨hfifo, hsubmitted, hsent, hannounced⟩ := collations_in_order sampleDelivery_run
  refine ⟨hfifo, hsubmitted, ⟨_, List.mem_of_getLast? rfl, ?_⟩, hannounced.resolve_right ?_⟩
  · refine (hsent _ (List.mem_of_getLast? rfl)).resolve_left fun hnone => ?_
    exact absurd (congrArg List.length hnone) (by decide +kernel)
  · rintro ⟨hnone, -⟩
    exact absurd (congrArg List.length hnone) (by decide +kernel)

end Samples

section Drained

variable {op : Op Hash Body RelayHash RuntimeVersion InherentData Collation CodeHash}
  {s s' : State Hash Body RelayHash Collation CodeHash}
  {h : List (RunEvent Hash Body RelayHash RuntimeVersion InherentData Collation CodeHash)}

/-- The collation task ends only when nothing waits. -/
def Attentive (s : State Hash Body RelayHash Collation CodeHash) : Prop :=
  s.collating = false → s.queue = []

/-- Both tasks have ended and nothing waits. -/
def Finished (s : State Hash Body RelayHash Collation CodeHash) : Prop :=
  s.queue = [] ∧ s.collating = false

theorem Steps.attentive (hs : Steps hash D V P overflowChecks op s s') (hi : Attentive s) :
    Attentive s' := by
  cases hs with
  | quiet => exact hi
  | sends b before after hb hc hm => exact fun hc' => absurd (hc.symm.trans hc') Bool.noConfusion
  | unheard => exact hi
  | receives hc hq => exact fun hc' => absurd (hc.symm.trans hc') Bool.noConfusion
  | finishes hq hb => exact fun _ => hq

/-- After the end of the builder nothing is sent, and the channel empties until both have ended. -/
theorem Steps.drains (hs : Steps hash D V P overflowChecks op s s') (hb : s.building = false)
    (hi : Attentive s) : s'.building = false ∧ s'.queue.drop s.queue.length = [] ∧
      (Finished s → Finished s') ∧ s'.queue.length ≤ s.queue.length ∧
      (op.isReceive = true → Finished s' ∨ s'.queue.length < s.queue.length) := by
  cases hs with
  | @quiet op s b building l hbuilding hl hop =>
    refine ⟨?_, by simp, fun hf => hf, le_refl _, fun hreceive => .inl ?_⟩
    · rcases building with _ | _
      · rfl
      · rw [← hb, hbuilding rfl]
    · cases op with
      | receive build =>
        rcases hop build rfl with hc | ⟨-, hb'⟩
        · exact ⟨hi hc, hc⟩
        · rw [hb] at hb'
          cases hb'
      | _ => cases hreceive
  | sends b before after hb' => exact absurd (hb.symm.trans hb') Bool.noConfusion
  | unheard b before after blockHash hb' => exact absurd (hb.symm.trans hb') Bool.noConfusion
  | receives hc hq =>
    refine ⟨hb, by simp [hq], fun hf => ?_, by simp [hq], fun _ => .inr (by simp [hq])⟩
    rw [hf.2] at hc
    cases hc
  | finishes hq hb' => exact ⟨hb, by simp, fun _ => ⟨hq, rfl⟩, le_refl _, fun _ => .inl ⟨hq, rfl⟩⟩

theorem attentive_of_run {allow : List (RunEvent Hash Body RelayHash RuntimeVersion InherentData
    Collation CodeHash) → State Hash Body RelayHash Collation CodeHash →
      Op Hash Body RelayHash RuntimeVersion InherentData Collation CodeHash → Prop}
    (hr : (machine hash D V P overflowChecks Body RuntimeVersion InherentData Collation
      CodeHash).Run allow h s) : Attentive s := by
  induction hr with
  | start h0 =>
    obtain ⟨building, collating, rfl⟩ := h0
    exact fun _ => rfl
  | @step h s op _ _ ih => exact (run_steps hash D V P overflowChecks op s).attentive ih

/-- After the end of the builder nothing is sent any more. -/
theorem sent_replay : ∀ (ops : List (Op Hash Body RelayHash RuntimeVersion InherentData Collation
    CodeHash)) (h : List (RunEvent Hash Body RelayHash RuntimeVersion InherentData Collation
      CodeHash)) {s : State Hash Body RelayHash Collation CodeHash}, s.building = false →
    Attentive s → ((machine hash D V P overflowChecks Body RuntimeVersion InherentData Collation
      CodeHash).replay h s ops).1.reverse.flatMap sent = h.reverse.flatMap sent
  | [], _, _, _, _ => rfl
  | op :: ops, h, s, hb, hi => by
    have hsteps := run_steps hash D V P overflowChecks op s
    obtain ⟨hb', hnone, -⟩ := hsteps.drains hb hi
    have hnone' : sent ((machine hash D V P overflowChecks Body RuntimeVersion InherentData
      Collation CodeHash).event s op) = [] := hnone
    refine (sent_replay ops _ hb' (hsteps.attentive hi)).trans ?_
    rw [List.reverse_cons, List.flatMap_append, List.flatMap_singleton, hnone', List.append_nil]

/-- **Drained.** Once the builder has ended, and the collation task then looks for a message more
often than messages wait, in any order with anything else, it has received all that was ever sent,
and has ended as well. -/
theorem collations_drained (hr : (machine hash D V P overflowChecks Body RuntimeVersion InherentData
    Collation CodeHash).Run (fun _ _ _ => True) h s) (hb : s.building = false)
    (ops : List (Op Hash Body RelayHash RuntimeVersion InherentData Collation CodeHash))
    (hops : s.queue.length < ops.countP Op.isReceive) :
    ((machine hash D V P overflowChecks Body RuntimeVersion InherentData Collation
      CodeHash).replay h s ops).2.queue = [] ∧
    ((machine hash D V P overflowChecks Body RuntimeVersion InherentData Collation
      CodeHash).replay h s ops).2.collating = false ∧
    ((machine hash D V P overflowChecks Body RuntimeVersion InherentData Collation
      CodeHash).replay h s ops).1.reverse.flatMap received = h.reverse.flatMap sent := by
  have hi := attentive_of_run hr
  obtain ⟨hqueue, hc⟩ : Finished ((machine hash D V P overflowChecks Body RuntimeVersion
      InherentData Collation CodeHash).replay h s ops).2 := by
    refine Machine.replay_finishes (fun s => s.building = false ∧ Attentive s) Finished
      (fun s => s.queue.length) Op.isReceive ?_ ?_ ?_ ?_ ops h ⟨hb, hi⟩ (.inr hops)
    · rintro s op ⟨hb, hi⟩
      have hsteps := run_steps hash D V P overflowChecks op s
      exact ⟨(hsteps.drains hb hi).1, hsteps.attentive hi⟩
    · rintro s op ⟨hb, hi⟩
      exact ((run_steps hash D V P overflowChecks op s).drains hb hi).2.2.1
    · rintro s op ⟨hb, hi⟩
      exact .inr ((run_steps hash D V P overflowChecks op s).drains hb hi).2.2.2.1
    · rintro s op ⟨hb, hi⟩
      exact ((run_steps hash D V P overflowChecks op s).drains hb hi).2.2.2.2
  refine ⟨hqueue, hc, ?_⟩
  have hfifo := messages_fifo (Machine.run_replay_all ops hr)
  rw [hqueue, List.append_nil] at hfifo
  rw [← hfifo, sent_replay ops h hb hi]

theorem collations_drained_sampled :
    (sampleMachine.replay (sampleMachine.replay [] (.initial sampleParams true true) samplePasses).1
      (sampleMachine.replay [] (.initial sampleParams true true) samplePasses).2
      sampleReceives).2.queue = [] ∧
    (sampleMachine.replay (sampleMachine.replay [] (.initial sampleParams true true) samplePasses).1
      (sampleMachine.replay [] (.initial sampleParams true true) samplePasses).2
      sampleReceives).2.collating = false ∧
    (sampleMachine.replay (sampleMachine.replay [] (.initial sampleParams true true) samplePasses).1
      (sampleMachine.replay [] (.initial sampleParams true true) samplePasses).2
      sampleReceives).1.reverse.flatMap received
        = (sampleMachine.replay [] (.initial sampleParams true true)
            samplePasses).1.reverse.flatMap sent :=
  collations_drained samplePasses_run (by decide +kernel) sampleReceives (by decide +kernel)

end Drained

end SlotBasedCollator

end Moonkit
