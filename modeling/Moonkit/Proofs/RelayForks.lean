import Moonkit.Base.WalkBack
import Moonkit.BasicCollator

/-!
# One block for a slot on a relay chain fork

The loop of the basic collator skips a request whose slot is not newer than that of the last request
it processed, if the relay block is higher. On one line of relay blocks this leaves one block for
each slot. After a request on another fork the loop has forgotten the line: a request goes through a
second time where the fork had an older slot, or no lower number (`one_block_per_slot_iff`).
-/

namespace Moonkit

namespace BasicCollator

open WalkBack (Ancestor)

variable {RelayHash Hash : Type} {P : Params} {s s' : State} {request : Request RelayHash Hash}
  {header : RelayHeader} {slot : Slot}

/-- The slot of the parachain on this relay parent. -/
def paraSlot (P : Params) (relayParentHeader : RelayHeader) : Option Slot :=
  match slotNow P relayParentHeader with
  | .ok (slot, _) => some slot
  | _ => none

/-- The request is for a block of this slot on the relay parent with this header, and whatever is
done for it besides the skip goes through. -/
structure GoesThrough (P : Params) (request : Request RelayHash Hash) (header : RelayHeader)
    (slot : Slot) : Prop where
  parentHeader : ∃ parentHeader, request.parentHeader = .ok parentHeader
  checkBlockStatus : request.checkBlockStatus = true
  code : ∃ code, request.code = some code
  relayParentHeader : request.relayParentHeader = .ok (some header)
  claimSlot : ∃ nimbusId, request.claimSlot = .ok (some nimbusId)
  slotNow : paraSlot P header = some slot
  createInherentData : ∃ inherentData, request.createInherentData = .ok inherentData
  collate : ∃ blocks, request.collate = .ok blocks ∧ blocks ≠ some []

section Handle

theorem tryRequest_bind_eq_ok {α β : Type} {x : Except String α} {f : α → LoopCall β} {b : β} :
    (tryRequest x >>= f) s = (.ok b, s') ↔ ∃ a, x = .ok a ∧ f a s = (.ok b, s') := by
  cases x with
  | error err =>
    rw [tryRequest, Call.bind_err_left]
    simp [Call.err]
  | ok a =>
    rw [tryRequest, Call.pure_bind_apply]
    simp

theorem tryRequest_keeps {α : Type} (x : Except String α) :
    Call.Keeps (id : State → State) (tryRequest x) := by
  cases x with
  | error err => exact fun _ => rfl
  | ok a => exact .pure a

theorem paraSlot_eq_some : paraSlot P header = some slot ↔
    ∃ timestamp, slotNow P header = .ok (slot, timestamp) := by
  unfold paraSlot
  rcases slotNow P header with ⟨slot', timestamp⟩ | e | m <;> simp

/-- A request is processed to the end exactly where it goes through and is not skipped. -/
theorem handle_eq_ok : (∃ answer, handle P request s = (.ok answer, s')) ↔
    ∃ header slot, GoesThrough P request header slot ∧ ¬ Skips s slot header ∧
      s' = ⟨slot, header.number⟩ := by
  unfold handle
  simp only [tryRequest_bind_eq_ok, Call.ensure_bind_eq_ok, Call.okOr_bind_eq_ok,
    Call.lift_bind_eq_ok, Call.get_bind]
  constructor
  · rintro ⟨answer, parent, hparent, hstatus, code, hcode, _, hrelay, header, rfl, _, hclaim, id,
      rfl, ⟨slot, timestamp⟩, hslot, hskip, data, hdata, blocks, hblocks, hend⟩
    refine ⟨header, slot, ⟨⟨_, hparent⟩, hstatus, ⟨_, hcode⟩, hrelay, ⟨_, hclaim⟩,
      paraSlot_eq_some.2 ⟨_, hslot⟩, ⟨_, hdata⟩, blocks, hblocks, ?_⟩, hskip, ?_⟩
    · rintro rfl
      cases hend
    · rcases blocks with _ | _ | ⟨block, blocks⟩
      · exact (Prod.mk.inj hend).2.symm
      · cases hend
      · exact (Prod.mk.inj hend).2.symm
  · rintro ⟨header, slot, hgoes, hskip, rfl⟩
    obtain ⟨parent, hparent⟩ := hgoes.parentHeader
    obtain ⟨code, hcode⟩ := hgoes.code
    obtain ⟨id, hclaim⟩ := hgoes.claimSlot
    obtain ⟨timestamp, hslot⟩ := paraSlot_eq_some.1 hgoes.slotNow
    obtain ⟨data, hdata⟩ := hgoes.createInherentData
    obtain ⟨blocks, hblocks, hne⟩ := hgoes.collate
    refine ⟨blocks.bind List.head?, parent, hparent, hgoes.checkBlockStatus, code, hcode, _,
      hgoes.relayParentHeader, header, rfl, _, hclaim, id, rfl, (slot, timestamp), hslot, hskip,
      data, hdata, blocks, hblocks, ?_⟩
    rcases blocks with _ | _ | ⟨block, blocks⟩
    · rfl
    · exact absurd rfl hne
    · rfl

/-- Only a request that is processed to the end changes what the loop keeps. -/
theorem handle_allOrNothing (P : Params) (request : Request RelayHash Hash) :
    Call.AllOrNothing (handle P request) := by
  unfold handle
  refine .bind (tryRequest_keeps _) fun _ => .bind (.ensure _ _) fun _ => .bind (.okOr _ _) fun _ =>
    .bind (tryRequest_keeps _) fun _ => .bind (.okOr _ _) fun _ => .bind (tryRequest_keeps _)
    fun _ => .bind (.okOr _ _) fun _ => .bind (.lift _) fun _ => .bind .get fun _ =>
    .bind (.ensure _ _) fun _ => .bind (tryRequest_keeps _) fun _ => .bind (tryRequest_keeps _)
    fun blocks => ?_
  cases blocks with
  | none => exact .of_ok fun _ => ⟨_, _, rfl⟩
  | some blocks => exact .bind (.okOr _ _) fun _ => .of_ok fun _ => ⟨_, _, rfl⟩

end Handle

/-- The relay blocks, whose numbers and slots go up from parent to child. -/
structure RelayTree (RelayHash : Type) (P : Params) where
  parent : RelayHash → Option RelayHash
  header : RelayHash → RelayHeader
  slot : RelayHash → Slot
  number_parent : ∀ {x y}, parent y = some x →
    (header y).number.val = (header x).number.val + 1
  slot_parent : ∀ {x y}, parent y = some x → slot x < slot y
  slot_header : ∀ {x relaySlot timestamp},
    P.relaySlotAndTimestamp (header x) P.relayChainSlotDuration = some (relaySlot, timestamp) →
      relaySlot = slot x

/-- A later relay slot has no earlier timestamp. -/
def Timed (P : Params) : Prop :=
  ∀ {header header' relaySlot relaySlot' timestamp timestamp'},
    P.relaySlotAndTimestamp header P.relayChainSlotDuration = some (relaySlot, timestamp) →
    P.relaySlotAndTimestamp header' P.relayChainSlotDuration = some (relaySlot', timestamp') →
      relaySlot ≤ relaySlot' → timestamp ≤ timestamp'

variable {T : RelayTree RelayHash P} {x y : RelayHash}

section Tree

theorem number_lt (h : Ancestor T.parent x y) : (T.header x).number < (T.header y).number := by
  refine h.lt (f := fun x => (T.header x).number) fun hp => ?_
  rw [Uint.lt_iff_val, T.number_parent hp]
  exact Nat.lt_succ_self _

theorem not_ancestor_self : ¬ Ancestor T.parent x x := fun h => lt_irrefl _ (number_lt h)

theorem paraSlot_eq_bind : paraSlot P header =
    (P.relaySlotAndTimestamp header P.relayChainSlotDuration).bind fun r =>
      match P.slotDuration with
      | some slotDuration => Slot.fromTimestamp r.2 slotDuration
      | none => some r.1 := by
  unfold paraSlot slotNow
  rcases P.relaySlotAndTimestamp header P.relayChainSlotDuration with _ | ⟨relaySlot, timestamp⟩
  · rfl
  · rcases P.slotDuration with _ | slotDuration
    · rfl
    · show (match (do
          let ourSlot ← Outcome.expect (Slot.fromTimestamp timestamp slotDuration)
            "attempt to divide by zero"
          pure (ourSlot, timestamp) : Outcome Rejection (Slot × Timestamp)) with
        | .ok (slot, _) => some slot
        | _ => none) = Slot.fromTimestamp timestamp slotDuration
      rcases Slot.fromTimestamp timestamp slotDuration with _ | ourSlot <;> rfl

theorem paraSlot_mono (htime : Timed P) (h : Ancestor T.parent x y) {slot' : Slot}
    (hx : paraSlot P (T.header x) = some slot) (hy : paraSlot P (T.header y) = some slot') :
    slot ≤ slot' := by
  rw [paraSlot_eq_bind, Option.bind_eq_some_iff] at hx hy
  obtain ⟨⟨relaySlot, timestamp⟩, hrelay, hslot⟩ := hx
  obtain ⟨⟨relaySlot', timestamp'⟩, hrelay', hslot'⟩ := hy
  have hle : relaySlot ≤ relaySlot' := by
    rw [T.slot_header hrelay, T.slot_header hrelay']
    exact (h.lt T.slot_parent).le
  have htimes : timestamp ≤ timestamp' := htime hrelay hrelay' hle
  rcases hduration : P.slotDuration with _ | slotDuration <;>
    simp only [hduration, Option.some.injEq] at hslot hslot'
  · rwa [← hslot, ← hslot']
  · obtain ⟨-, hval⟩ := Uint.checkedDiv_eq_some.1 hslot
    obtain ⟨-, hval'⟩ := Uint.checkedDiv_eq_some.1 hslot'
    rw [Uint.le_iff_val, hval, hval']
    exact Nat.div_le_div_right htimes

end Tree

/-- The request was processed to the end. -/
def processed (e : RunEvent RelayHash Hash) : Bool :=
  match e.answer with
  | .ok _ => true
  | _ => false

def lastProcessed (h : List (RunEvent RelayHash Hash)) : Option (RunEvent RelayHash Hash) :=
  h.find? processed

/-- The relay block of a request is delivered once, and before its children, while the loop is
running. If the client answers with a header, it is that of the relay block. -/
structure Delivered (T : RelayTree RelayHash P) (h : List (RunEvent RelayHash Hash))
    (request : Request RelayHash Hash) : Prop where
  once : ∀ e ∈ h, e.op.relayParent ≠ request.relayParent
  before : ∀ e ∈ h, T.parent e.op.relayParent ≠ some request.relayParent
  running : ∀ e ∈ h, e.answer.isPanic = false
  header : ∀ header, request.relayParentHeader = .ok (some header) →
    header = T.header request.relayParent

/-- Of two relay blocks on one line that were processed, each has its own parachain slot. -/
def OnePerSlot (T : RelayTree RelayHash P) (h : List (RunEvent RelayHash Hash)) : Prop :=
  ∀ e ∈ h, ∀ e' ∈ h, processed e → processed e' →
    Ancestor T.parent e.op.relayParent e'.op.relayParent →
      paraSlot P (T.header e.op.relayParent) ≠ paraSlot P (T.header e'.op.relayParent)

/-- One of the relay blocks is an ancestor of the other. -/
def OneLine (T : RelayTree RelayHash P) (x y : RelayHash) : Prop :=
  Ancestor T.parent x y ∨ Ancestor T.parent y x

/-- `y` comes before `z`, and is `x` or comes after it. -/
def Between (T : RelayTree RelayHash P) (x y z : RelayHash) : Prop :=
  (x = y ∨ Ancestor T.parent x y) ∧ Ancestor T.parent y z

/-- The request comes back to a line of relay blocks where its slot has been processed, and the last
one processed has made the loop forget that: it was not on the line in between, and for an older
slot or on a relay block of no lower number. -/
structure ComesBack (T : RelayTree RelayHash P) (h : List (RunEvent RelayHash Hash))
    (request : Request RelayHash Hash) (slot : Slot) (e : RunEvent RelayHash Hash) : Prop where
  goesThrough : GoesThrough P request (T.header request.relayParent) slot
  mem : e ∈ h
  processed : processed e
  line : OneLine T e.op.relayParent request.relayParent
  again : paraSlot P (T.header e.op.relayParent) = some slot
  forgotten : ∃ last lastSlot, lastProcessed h = some last ∧
    paraSlot P (T.header last.op.relayParent) = some lastSlot ∧
    ¬ Between T e.op.relayParent last.op.relayParent request.relayParent ∧
    (lastSlot < slot ∨
      (T.header request.relayParent).number ≤ (T.header last.op.relayParent).number)

/-- No request of the history came back. -/
def NoneComesBack (T : RelayTree RelayHash P) : List (RunEvent RelayHash Hash) → Prop
  | [] => True
  | e :: h => (∀ slot e', ¬ ComesBack T h e.op slot e') ∧ NoneComesBack T h

section Runs

variable {h : List (RunEvent RelayHash Hash)} {last : RunEvent RelayHash Hash}

theorem processed_event (s : State) (request : Request RelayHash Hash) :
    processed ((machine RelayHash Hash P).event s request) = true ↔
      ∃ header slot, GoesThrough P request header slot ∧ ¬ Skips s slot header ∧
        (handle P request s).2 = ⟨slot, header.number⟩ := by
  rw [← handle_eq_ok]
  show (match (handle P request s).1 with | .ok _ => true | _ => false) = true ↔ _
  rcases handle P request s with ⟨answer | e | m, s'⟩ <;> simp

theorem event_after_of_not_processed
    (hp : processed ((machine RelayHash Hash P).event s request) = false) :
    ((machine RelayHash Hash P).exec s request).2 = s := by
  rcases handle_allOrNothing P request s with ⟨answer, s', hok⟩ | hsame
  · simp [processed, Machine.event, machine, hok] at hp
  · exact hsame

/-- What the loop keeps is of the last request processed. -/
structure Remembers (T : RelayTree RelayHash P) (h : List (RunEvent RelayHash Hash)) (s : State) :
    Prop where
  slot : ∀ last, lastProcessed h = some last →
    paraSlot P (T.header last.op.relayParent) = some s.lastProcessedSlot
  number : ∀ last, lastProcessed h = some last →
    (T.header last.op.relayParent).number = s.lastRelayChainBlock

theorem run_remembers (hr : (machine RelayHash Hash P).Run (fun h _ r => Delivered T h r) h s) :
    Remembers T h s := by
  refine hr.invariant (Remembers T) (fun s _ => ⟨?_, ?_⟩) ?_
  · intro last hlast
    cases hlast
  · intro last hlast
    cases hlast
  · intro h s request _ ih hdelivered
    rcases hp : processed ((machine RelayHash Hash P).event s request) with _ | _
    · have hlast : lastProcessed ((machine RelayHash Hash P).event s request :: h) =
          lastProcessed h := by
        rw [lastProcessed, List.find?_cons_of_neg (by simp [hp])]
        rfl
      rw [event_after_of_not_processed hp]
      exact ⟨fun last hl => ih.slot last (hlast ▸ hl), fun last hl => ih.number last (hlast ▸ hl)⟩
    · have hlast : lastProcessed ((machine RelayHash Hash P).event s request :: h) =
          some ((machine RelayHash Hash P).event s request) :=
        List.find?_cons_of_pos hp
      obtain ⟨header, slot, hgoes, -, hafter⟩ := (processed_event s request).1 hp
      obtain rfl := hdelivered.header header hgoes.relayParentHeader
      have hafter' : ((machine RelayHash Hash P).exec s request).2 =
          ⟨slot, (T.header request.relayParent).number⟩ := hafter
      rw [hafter']
      refine ⟨fun last hl => ?_, fun last hl => ?_⟩ <;>
        rw [hlast] at hl <;> obtain rfl := Option.some.inj hl
      · exact hgoes.slotNow
      · rfl

/-- A request is skipped if its slot has been processed on its line, and the last request processed
is on this line too. -/
theorem skips_of_between (htime : Timed P) (hrem : Remembers T h s)
    (hlast : lastProcessed h = some last)
    (hbetween : Between T x last.op.relayParent request.relayParent)
    (hslot : paraSlot P (T.header x) = some slot) :
    Skips s slot (T.header request.relayParent) := by
  have hslotLast := hrem.slot last hlast
  refine ⟨?_, hrem.number last hlast ▸ number_lt hbetween.2⟩
  rcases hbetween.1 with rfl | hbelow
  · rw [hslotLast] at hslot
    exact (Option.some.inj hslot).ge
  · exact paraSlot_mono htime hbelow hslot hslotLast

variable {e : RunEvent RelayHash Hash}

theorem processed_of_comesBack (hrem : Remembers T h s) (hback : ComesBack T h request slot e) :
    processed ((machine RelayHash Hash P).event s request) := by
  obtain ⟨last, lastSlot, hlast, hslot, -, hforgotten⟩ := hback.forgotten
  rw [hrem.slot last hlast, Option.some.injEq] at hslot
  rw [← hslot, hrem.number last hlast] at hforgotten
  have hskip : ¬ Skips s slot (T.header request.relayParent) := fun hskip =>
    hforgotten.elim (not_lt_of_ge hskip.1) (not_le_of_gt hskip.2)
  obtain ⟨answer, hok⟩ := handle_eq_ok.2 ⟨_, _, hback.goesThrough, hskip, rfl⟩
  simp [processed, Machine.event, machine, hok]

/-- A request processed in a slot that its line has had came back. -/
theorem comesBack_of_processed (htime : Timed P) (hrem : Remembers T h s)
    (hdelivered : Delivered T h request)
    (hp : processed ((machine RelayHash Hash P).event s request)) (he : e ∈ h)
    (hpe : processed e) (hline : OneLine T e.op.relayParent request.relayParent)
    (hsame : paraSlot P (T.header e.op.relayParent) =
      paraSlot P (T.header request.relayParent)) : ∃ slot, ComesBack T h request slot e := by
  obtain ⟨header, slot, hgoes, hskip, -⟩ := (processed_event s request).1 hp
  obtain rfl := hdelivered.header header hgoes.relayParentHeader
  have hslot := hsame.trans hgoes.slotNow
  obtain ⟨last, hlast⟩ : ∃ last, lastProcessed h = some last :=
    Option.isSome_iff_exists.1 (List.find?_isSome.2 ⟨e, he, hpe⟩)
  refine ⟨slot, hgoes, he, hpe, hline, hslot, last, _, hlast, hrem.slot last hlast, ?_, ?_⟩
  · exact fun hbetween => hskip (skips_of_between htime hrem hlast hbetween hslot)
  · rw [hrem.number last hlast]
    by_contra hkept
    rw [not_or, not_lt, not_le] at hkept
    exact hskip hkept

/-- The new request is in no slot that its line has had, unless it comes back. -/
theorem event_onePerSlot_iff (htime : Timed P) (hrem : Remembers T h s)
    (hdelivered : Delivered T h request) :
    (∀ e ∈ h, processed e → processed ((machine RelayHash Hash P).event s request) →
      OneLine T e.op.relayParent request.relayParent →
        paraSlot P (T.header e.op.relayParent) ≠ paraSlot P (T.header request.relayParent)) ↔
      ∀ slot e, ¬ ComesBack T h request slot e := by
  constructor
  · intro hone slot e hback
    exact hone e hback.mem hback.processed (processed_of_comesBack hrem hback) hback.line
      (hback.again.trans hback.goesThrough.slotNow.symm)
  · intro hnone e he hpe hp hline hsame
    obtain ⟨slot, hback⟩ := comesBack_of_processed htime hrem hdelivered hp he hpe hline hsame
    exact hnone slot e hback

end Runs

/-- Each line of relay blocks has one block for a slot in exactly the runs in which no request comes
back to it. -/
theorem one_block_per_slot_iff (T : RelayTree RelayHash P) (htime : Timed P)
    {h : List (RunEvent RelayHash Hash)} {s : State}
    (hr : (machine RelayHash Hash P).Run (fun h _ request => Delivered T h request) h s) :
    OnePerSlot T h ↔ NoneComesBack T h := by
  induction hr with
  | start _ => exact ⟨fun _ => trivial, fun _ e he => absurd he List.not_mem_nil⟩
  | @step h s request hr hdelivered ih =>
    have hiff := event_onePerSlot_iff htime (run_remembers hr) hdelivered
    constructor
    · intro hone
      refine ⟨hiff.1 fun e he hpe hp hline => ?_, ih.1 fun e he e' he' =>
        hone e (List.mem_cons_of_mem _ he) e' (List.mem_cons_of_mem _ he')⟩
      rcases hline with hanc | hanc
      · exact hone e (List.mem_cons_of_mem _ he) _ List.mem_cons_self hpe hp hanc
      · exact (hone _ List.mem_cons_self e (List.mem_cons_of_mem _ he) hp hpe hanc).symm
    · rintro ⟨hnone, hrest⟩ e he e' he' hpe hpe' hanc
      rcases List.mem_cons.1 he with rfl | he <;> rcases List.mem_cons.1 he' with rfl | he'
      · exact absurd hanc not_ancestor_self
      · exact (hiff.2 hnone e' he' hpe' hpe (.inr hanc)).symm
      · exact hiff.2 hnone e he hpe hpe' (.inl hanc)
      · exact ih.2 hrest e he e' he' hpe hpe' hanc

namespace Mock

/-- `*b"BABE"` -/
def babeEngineId : ConsensusEngineId := #v[66, 65, 66, 69]

/-- The slot of a plain secondary BABE pre-digest: a tag, four bytes of the author's index, and
eight bytes of the slot. -/
def babeSlot : DigestItem → Option Slot
  | .preRuntime id (2 :: _ :: _ :: _ :: _ :: slot) =>
    let n := slot.foldr (fun byte n => n * 2 ^ 8 + byte.toNat) 0
    if h : id = babeEngineId ∧ n ≤ 2 ^ 64 - 1 then some ⟨n, h.2⟩ else none
  | _ => none

/-- Relay slots of 6 and parachain slots of 12 seconds. -/
def params : Params where
  relayChainSlotDuration := 6000
  slotDuration := some (.lit 12000)
  relaySlotAndTimestamp header duration :=
    (header.digest.findSome? babeSlot).bind fun slot =>
      (slot.timestamp duration.asU64).map fun timestamp => (slot, timestamp)

theorem timed : Timed params := by
  intro header header' relaySlot relaySlot' timestamp timestamp' h h' hle
  simp only [params, Option.bind_eq_some_iff, Option.map_eq_some_iff, Prod.mk.injEq] at h h'
  obtain ⟨_, -, _, hmul, rfl, rfl⟩ := h
  obtain ⟨_, -, _, hmul', rfl, rfl⟩ := h'
  rw [Uint.le_iff_val, Uint.checkedMul_eq_some.1 hmul, Uint.checkedMul_eq_some.1 hmul']
  exact Nat.mul_le_mul_left _ hle

/-- Two blocks on one parent. -/
inductive Relay where
  | base
  | left
  | right
deriving DecidableEq

def relayHeader (number : U32) (slot : UInt8) : RelayHeader :=
  ⟨number, [.preRuntime babeEngineId [2, 0, 0, 0, 0, slot, 0, 0, 0, 0, 0, 0, 0]]⟩

def headers : Relay → RelayHeader
  | .base => relayHeader (.lit 10) 10
  | .left => relayHeader (.lit 11) 12
  | .right => relayHeader (.lit 11) 11

def slots : Relay → Slot
  | .base => .lit 10
  | .left => .lit 12
  | .right => .lit 11

theorem slot_of_headers (x : Relay) :
    (params.relaySlotAndTimestamp (headers x) 6000).map Prod.fst = some (slots x) := by
  cases x <;> decide +kernel

/-- The parachain slots are 5, 6 and 5. -/
def tree : RelayTree Relay params where
  parent
    | .base => none
    | _ => some .base
  header := headers
  slot := slots
  number_parent := by
    intro x y h
    cases y <;> cases h <;> rfl
  slot_parent := by
    intro x y h
    cases y <;> cases h <;> decide
  slot_header := by
    intro x relaySlot timestamp h
    have hslot := slot_of_headers x
    rw [show params.relaySlotAndTimestamp (headers x) 6000 = _ from h] at hslot
    exact Option.some.inj hslot

/-- A request that goes through, if it is not skipped, to an answer without a block. -/
def goingThrough (relayParent : Relay) : Request Relay ℕ where
  relayParent := relayParent
  parentHeader := .ok ⟨0, 4, 0, 0, []⟩
  checkBlockStatus := true
  code := some []
  relayParentHeader := .ok (some (tree.header relayParent))
  claimSlot := .ok (some (Vector.replicate 32 0))
  createInherentData := .ok ()
  collate := .ok none

/-- The history and the state after these requests. -/
def calls (relayParents : List Relay) : List (RunEvent Relay ℕ) × State :=
  (machine Relay ℕ params).replay [] ⟨0, 0⟩ (relayParents.map goingThrough)

theorem delivered {h : List (RunEvent Relay ℕ)} {x : Relay}
    (hall : ∀ e ∈ h, e.op.relayParent ≠ x ∧ tree.parent e.op.relayParent ≠ some x ∧
      e.answer.isPanic = false) : Delivered tree h (goingThrough x) where
  once e he := (hall e he).1
  before e he := (hall e he).2.1
  running e he := (hall e he).2.2
  header _ h := (Option.some.inj (Except.ok.inj h)).symm

theorem run_line : (machine Relay ℕ params).Run (fun h _ request => Delivered tree h request)
    (calls [.base, .right]).1 (calls [.base, .right]).2 :=
  Machine.run_replay _ (.start rfl)
    ⟨delivered (by decide +kernel), delivered (by decide +kernel), trivial⟩

theorem run_fork : (machine Relay ℕ params).Run (fun h _ request => Delivered tree h request)
    (calls [.base, .left, .right]).1 (calls [.base, .left, .right]).2 :=
  Machine.run_replay _ (.start rfl)
    ⟨delivered (by decide +kernel), delivered (by decide +kernel), delivered (by decide +kernel),
      trivial⟩

end Mock

/-- On one line the second request for the slot is skipped. -/
theorem one_block_on_line : OnePerSlot Mock.tree (Mock.calls [.base, .right]).1 := by
  refine (one_block_per_slot_iff Mock.tree Mock.timed Mock.run_line).2
    ⟨fun slot e hback => ?_, fun slot e hback => absurd hback.mem List.not_mem_nil, trivial⟩
  obtain rfl := List.mem_singleton.1 hback.mem
  have hlast : lastProcessed (Mock.calls [.base]).1 = (Mock.calls [.base]).1.head? :=
    List.find?_cons_of_pos (by decide +kernel)
  obtain ⟨last, lastSlot, hlast', -, hbetween, -⟩ := hback.forgotten
  obtain rfl := Option.some.inj (hlast.symm.trans hlast')
  exact hbetween ⟨.inl rfl, .single rfl⟩

/-- After a block on the other fork the first one is forgotten, and its slot has a second block. -/
theorem two_blocks_on_fork : (machine Mock.Relay ℕ Mock.params).Run
      (fun h _ request => Delivered Mock.tree h request)
      (Mock.calls [.base, .left, .right]).1 (Mock.calls [.base, .left, .right]).2 ∧
    ¬ OnePerSlot Mock.tree (Mock.calls [.base, .left, .right]).1 := by
  refine ⟨Mock.run_fork, fun hone => ?_⟩
  have hboth : ∃ e ∈ (Mock.calls [.base, .left, .right]).1,
      ∃ e' ∈ (Mock.calls [.base, .left, .right]).1, processed e ∧ processed e' ∧
        e.op.relayParent = .base ∧ e'.op.relayParent = .right := by
    decide +kernel
  obtain ⟨e, he, e', he', hp, hp', hbase, hright⟩ := hboth
  have hanc : Ancestor Mock.tree.parent e.op.relayParent e'.op.relayParent := by
    rw [hbase, hright]
    exact .single rfl
  refine hone e he e' he' hp hp' hanc ?_
  rw [hbase, hright]
  decide +kernel

end BasicCollator

end Moonkit
