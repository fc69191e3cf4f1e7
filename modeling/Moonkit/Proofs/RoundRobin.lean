import Moonkit.AuraStyleFilter
import Moonkit.Base.Rotation
import Moonkit.Proofs.Authorship
import Mathlib.Data.Set.Card

/-!
# Round robin

Where the author inherent asks the AuRa-style filter, the slots rotate through the potential
authors: a block that ends was authored by the account whose turn its slot is, and in a window of
some rounds no account gets more slots than its places in the list give it.
-/

namespace Moonkit

namespace AuraStyleFilter

open AuthorInherent (RunEvent SealedBy askedAuthor currentBlock machine Completes InOrder)

variable {Hash AccountId : Type} [DecidableEq AccountId] {potentialAuthors : List AccountId}

/-- The filter lets exactly the account author whose turn it is; without potential authors it
panics. -/
theorem canAuthor_eq_true {account : AccountId} {slot : U32} :
    canAuthor potentialAuthors account slot = .ok true ↔
      Rotation.turn potentialAuthors slot.val = some account := by
  unfold canAuthor Rotation.turn Outcome.rem
  simp only [Outcome.bind_eq_ok, Outcome.expect_eq_ok]
  split_ifs with hlen
  · simp [List.length_eq_zero_iff.1 hlen]
  · constructor
    · rintro ⟨_, ⟨⟩, active, hactive, hp⟩
      have heq : account = active := by simpa [pure] using hp
      rw [heq]
      exact hactive
    · exact fun hactive => ⟨_, rfl, account, hactive, by simp [pure]⟩

variable {hash : Header Hash → Hash} {verify : NimbusId → Hash → NimbusSignature → Bool}
  {h : List (RunEvent Hash AccountId AccountId)} {s : AuthorInherent.State AccountId}

/-- Everywhere in the history the inherent asks this filter, with these potential authors. -/
def Asks (potentialAuthors : List AccountId) (h : List (RunEvent Hash AccountId AccountId)) :
    Prop :=
  ∀ e ∈ h, ∃ lookupAccount slot, e.before.env = env potentialAuthors lookupAccount slot

/-- The slots in which the inherent accepted the account. -/
def acceptedSlots (h : List (RunEvent Hash AccountId AccountId)) (account : AccountId) :
    Finset ℕ :=
  ((h.filter fun e => askedAuthor e = some account).map fun e => e.before.env.slot.val).toFinset

omit [DecidableEq AccountId] in
theorem mem_of_currentBlock {b : RunEvent Hash AccountId AccountId}
    {es : List (RunEvent Hash AccountId AccountId)} (hb : currentBlock h = some (b, es)) :
    es ⊆ h := by
  induction h generalizing es with
  | nil => cases hb
  | cons e h ih =>
    rcases e with ⟨before, op, answer, after⟩
    cases op with
    | beginBlock header =>
      cases hb
      exact List.nil_subset _
    | endBlock => cases hb
    | _ =>
      obtain ⟨⟨b', es'⟩, hcur, heq⟩ := Option.map_eq_some_iff.1 hb
      cases heq
      exact List.cons_subset_cons _ (ih hcur)

theorem turn_of_asked (hr : Machine.Run (machine hash verify AccountId AccountId)
      (fun h s op => Completes hash verify s op ∧ InOrder h op) h s)
    (hasks : Asks potentialAuthors h) {e : RunEvent Hash AccountId AccountId} (he : e ∈ h)
    {account : AccountId} (hasked : askedAuthor e = some account) :
    Rotation.turn potentialAuthors e.before.env.slot.val = some account := by
  obtain ⟨h', hr', ⟨hc, -⟩, hevent⟩ := hr.mem_event he
  obtain ⟨lookupAccount, slot, henv⟩ := hasks e he
  rcases e with ⟨before, op, answer, after⟩
  cases op with
  | kickOffAuthorshipValidation origin =>
    rcases AuthorInherent.kickOff_cases origin before with hk | ⟨m, s', hk⟩ | ⟨a, ha, hcan, hk⟩
    · simp only [Machine.event, machine, AuthorInherent.Op.run, hk, Machine.Event.mk.injEq]
        at hevent
      simp [askedAuthor, hevent.2.2.1] at hasked
    · simp [Completes, AuthorInherent.Op.run, hk, Outcome.isPanic] at hc
    · simp only [Machine.event, machine, AuthorInherent.Op.run, hk, Machine.Event.mk.injEq]
        at hevent
      have haccount : a = account := by simpa [askedAuthor, hevent.2.2.1, ha] using hasked
      simp only at henv
      rw [henv] at hcan ⊢
      exact canAuthor_eq_true.1 (haccount ▸ of_decide_eq_true hcan)
  | _ => simp [askedAuthor] at hasked

theorem card_acceptedSlots_le (hr : Machine.Run (machine hash verify AccountId AccountId)
      (fun h s op => Completes hash verify s op ∧ InOrder h op) h s)
    (hasks : Asks potentialAuthors h) (account : AccountId) (start k : ℕ) :
    ((acceptedSlots h account).filter
      (· ∈ Finset.Ico start (start + k * potentialAuthors.length))).card
      ≤ k * potentialAuthors.count account := by
  rw [← Rotation.card_turns potentialAuthors account start k]
  refine Finset.card_le_card fun slot hslot => ?_
  simp only [acceptedSlots, Finset.mem_filter, List.mem_toFinset, List.mem_map, List.mem_filter,
    decide_eq_true_eq] at hslot
  obtain ⟨⟨e, ⟨he, hasked⟩, rfl⟩, hwindow⟩ := hslot
  exact Finset.mem_filter.2 ⟨hwindow, turn_of_asked hr hasks he hasked⟩

/-- The slots of a window in which the filter lets the account author. -/
theorem ncard_slots (account : AccountId) {start k : ℕ}
    (hwindow : start + k * potentialAuthors.length ≤ 2 ^ 32) :
    {slot : U32 | slot.val ∈ Finset.Ico start (start + k * potentialAuthors.length) ∧
      canAuthor potentialAuthors account slot = .ok true}.ncard
      = k * potentialAuthors.count account := by
  rw [← Rotation.card_turns potentialAuthors account start k, ← Set.ncard_coe_finset,
    ← Set.ncard_image_of_injective _ Uint.val_injective]
  congr 1
  ext i
  simp only [Set.mem_image, Set.mem_ofPred_eq, canAuthor_eq_true, Finset.coe_filter]
  constructor
  · rintro ⟨slot, ⟨hmem, hturn⟩, rfl⟩
    exact ⟨hmem, hturn⟩
  · rintro ⟨hmem, hturn⟩
    have hlt := (Finset.mem_Ico.1 hmem).2
    exact ⟨⟨i, by omega⟩, ⟨hmem, hturn⟩, rfl⟩

/-- **Round robin.** Every block that ends was sealed with the key of the account whose turn the
slot of its check was, so no block ends where there is no potential author. In every window of `k`
rounds an account can author in `k` slots for each of its places among the potential authors, and
no run accepts it in more. -/
theorem round_robin (hr : Machine.Run (machine hash verify AccountId AccountId)
      (fun h s op => Completes hash verify s op ∧ InOrder h op) h s)
    (hasks : Asks potentialAuthors h) :
    (∀ e h', e :: h' <:+ h → e.op = .endBlock → ∃ b es id account x,
      currentBlock h' = some (b, es) ∧ SealedBy hash verify b id ∧
      b.before.env.lookupAccount id = some account ∧ x ∈ es ∧ askedAuthor x = some account ∧
      potentialAuthors[x.before.env.slot.val % potentialAuthors.length]? = some account) ∧
    (potentialAuthors = [] → ∀ e ∈ h, e.op ≠ .endBlock) ∧
    ∀ account start k, start + k * potentialAuthors.length ≤ 2 ^ 32 →
      {slot : U32 | slot.val ∈ Finset.Ico start (start + k * potentialAuthors.length) ∧
        canAuthor potentialAuthors account slot = .ok true}.ncard
        = k * potentialAuthors.count account ∧
      ((acceptedSlots h account).filter
        (· ∈ Finset.Ico start (start + k * potentialAuthors.length))).card
        ≤ k * potentialAuthors.count account := by
  have hends : ∀ e h', e :: h' <:+ h → e.op = .endBlock → ∃ b es id account x,
      currentBlock h' = some (b, es) ∧ SealedBy hash verify b id ∧
      b.before.env.lookupAccount id = some account ∧ x ∈ es ∧ askedAuthor x = some account ∧
      Rotation.turn potentialAuthors x.before.env.slot.val = some account := by
    intro e h' hsuffix hop
    obtain ⟨s', hr'⟩ := hr.suffix hsuffix
    cases hr' with
    | @step _ s op hr' hallow =>
      obtain ⟨hc, ho⟩ := hallow
      obtain rfl : op = .endBlock := hop
      obtain ⟨⟨b, es⟩, hb⟩ := Option.isSome_iff_exists.1 ho
      obtain ⟨id, account, hseal, hl, -, hes, hinc⟩ :=
        (AuthorInherent.inBlock_of_run hr').opened b es hb
      rcases AuthorInherent.onFinalize_cases s with ⟨m, s', hf⟩ | ⟨hflag, -⟩
      · simp [Completes, AuthorInherent.Op.run, hf, Outcome.isPanic] at hc
      · obtain ⟨x, hx, hsome⟩ := hinc hflag
        obtain ⟨asked, hasked⟩ := Option.isSome_iff_exists.1 hsome
        obtain ⟨rfl, -⟩ := hes x hx asked hasked
        have hmem : x ∈ h := hsuffix.subset (List.mem_cons_of_mem _ (mem_of_currentBlock hb hx))
        exact ⟨b, es, id, asked, x, hb, hseal, hl, hx, hasked,
          turn_of_asked hr hasks hmem hasked⟩
  refine ⟨hends, ?_, fun account start k hwindow =>
    ⟨ncard_slots account hwindow, card_acceptedSlots_le hr hasks account start k⟩⟩
  rintro rfl e he hop
  obtain ⟨h₁, h₂, rfl⟩ := List.append_of_mem he
  obtain ⟨b, es, id, account, x, -, -, -, -, -, hturn⟩ :=
    hends e h₂ (List.suffix_append _ _) hop
  simp [Rotation.turn] at hturn

/-- Account 7 has two of three places, and the only key. -/
def sampleEnv (slot : U32) : AuthorInherent.Env ℕ :=
  env [7, 8, 7] (fun id => if id = sampleId 1 then some 7 else none) slot

/-- A block in slot 0 and one in slot 2. -/
def sampleRounds : List (RunEvent ℕ ℕ ℕ) × AuthorInherent.State ℕ :=
  AuthorInherent.sampleMachine.replay [] ⟨none, false, [], sampleEnv 0⟩
    [.beginBlock AuthorInherent.sampleHeader, .kickOffAuthorshipValidation .none, .endBlock,
      .beginBlock AuthorInherent.sampleHeader, .elsewhere (sampleEnv (.lit 2)),
      .kickOffAuthorshipValidation .none, .endBlock]

theorem sampleRounds_run : Machine.Run AuthorInherent.sampleMachine
    (fun h s op => Completes (fun _ => 0) (fun id _ _ => id = sampleId 1) s op ∧ InOrder h op)
    sampleRounds.1 sampleRounds.2 :=
  Machine.run_replay _ (.start rfl) (by decide +kernel)

theorem sampleRounds_asks : Asks [7, 8, 7] sampleRounds.1 := by
  intro e he
  simp only [sampleRounds, Machine.replay, List.mem_cons, List.not_mem_nil, or_false] at he
  rcases he with rfl | rfl | rfl | rfl | rfl | rfl | rfl <;> exact ⟨_, _, rfl⟩

example : acceptedSlots sampleRounds.1 7 = {0, 2} := by decide +kernel

theorem round_robin_sampled : (∃ b es id account x,
      currentBlock sampleRounds.1.tail = some (b, es) ∧
      SealedBy (fun _ => 0) (fun id _ _ => id = sampleId 1) b id ∧
      b.before.env.lookupAccount id = some account ∧ x ∈ es ∧ askedAuthor x = some account ∧
      [7, 8, 7][x.before.env.slot.val % 3]? = some account) ∧
    ((acceptedSlots sampleRounds.1 7).filter (· ∈ Finset.Ico 0 3)).card ≤ 2 :=
  have hrobin := round_robin sampleRounds_run sampleRounds_asks
  ⟨hrobin.1 _ _ (List.suffix_refl _) rfl, (hrobin.2.2 7 0 1 (by decide)).2⟩

end AuraStyleFilter

end Moonkit
