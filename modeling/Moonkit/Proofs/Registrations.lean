import Moonkit.AuthorMappingMock
import Moonkit.Base.ReverseIndex

/-!
# Registrations and the reverse lookup

What a call does to the registrations is one of three things: it registers an id that was free, it
rotates a registration of the signer to another id, or it removes one. All three keep the reverse
lookup true: the id it gives for an account is registered by that account. A removal also forgets
the id of an account that owns another registration, and that is the only way an account with a
registration can be without an entry.
-/

namespace Moonkit

namespace AuthorMapping

variable {AccountId Keys Ledger : Type} {C : Config AccountId Keys Ledger} {s s' : State C}

/-- The account owns the registration of the id. -/
def State.Owns (s : State C) (accountId : AccountId) (nimbusId : NimbusId) : Prop :=
  accountIdOf s nimbusId = some accountId

theorem owns_iff {accountId : AccountId} {nimbusId : NimbusId} : s.Owns accountId nimbusId ↔
    ReverseIndex.Owns RegistrationInfo.account s.mappingWithDeposit accountId nimbusId := by
  simp [State.Owns, accountIdOf, ReverseIndex.Owns]

variable [DecidableEq AccountId]

section Calls

/-- The state after `id` was registered for `accountId`, on the ledger with its deposit reserved. -/
def State.registered (s : State C) (id : NimbusId) (accountId : AccountId) (keys : Keys)
    (ledger : Ledger) : State C :=
  { s with
    mappingWithDeposit := s.mappingWithDeposit.insert id ⟨accountId, s.depositAmount, keys⟩
    nimbusLookup := s.nimbusLookup.insert accountId id
    ledger := ledger }

/-- The state after the registration `info` of `old` was moved to `new`. -/
def State.rotated (s : State C) (old new : NimbusId) (info : RegistrationInfo C) (keys : Keys) :
    State C :=
  { s with
    mappingWithDeposit := (s.mappingWithDeposit.erase old).insert new { info with keys := keys }
    nimbusLookup := s.nimbusLookup.insert info.account new }

/-- The state after the registration `info` of `id` was removed. -/
def State.removed (s : State C) (id : NimbusId) (info : RegistrationInfo C) : State C :=
  { s with
    mappingWithDeposit := s.mappingWithDeposit.erase id
    nimbusLookup := s.nimbusLookup.erase info.account
    ledger := (C.depositCurrency.unreserve s.ledger info.account info.deposit).2 }

def State.withEvents (s : State C) (events : List (Event AccountId Keys)) : State C :=
  { s with events := events }

variable {accountId : AccountId} {id old new : NimbusId} {keys : Keys} {info : RegistrationInfo C}

theorem rmKeys_ok (hinfo : s.mappingWithDeposit.lookup id = some info) :
    rmKeys id info.account s =
      (.ok (), (s.removed id info).withEvents
        (s.events ++ [.keysRemoved id info.account info.keys])) := by
  unfold rmKeys
  rw [Call.get_bind, hinfo]
  simp only [Call.okOr_some, Call.pure_bind_apply, Call.ensure_bind, if_true, Call.modify_bind]
  rfl

theorem rmKeys_cases (id : NimbusId) (accountId : AccountId) (s : State C) :
    (∃ e ∈ [Error.associationNotFound, .notYourAssociation],
      rmKeys id accountId s = (.err (.pallet e), s)) ∨
      ∃ info, s.mappingWithDeposit.lookup id = some info ∧ info.account = accountId := by
  unfold rmKeys
  rw [Call.get_bind]
  rcases hinfo : s.mappingWithDeposit.lookup id with _ | info
  · exact .inl ⟨.associationNotFound, by simp, rfl⟩
  · by_cases haccount : accountId = info.account
    · exact .inr ⟨info, rfl, haccount.symm⟩
    · simp only [Call.okOr_some, Call.pure_bind_apply, Call.ensure_bind, if_neg haccount]
      exact .inl ⟨.notYourAssociation, by simp, rfl⟩

theorem enactRegistration_ok {ledger : Ledger}
    (h : C.depositCurrency.reserve s.ledger accountId s.depositAmount = some ledger) :
    enactRegistration id accountId keys s = (.ok (), s.registered id accountId keys ledger) := by
  have hreserve : reserve accountId s.depositAmount s = (.ok (), { s with ledger := ledger }) := by
    simp only [reserve, h]
  unfold enactRegistration
  rw [Call.get_bind, Call.bind_ok hreserve]
  rfl

theorem enactRegistration_err
    (h : C.depositCurrency.reserve s.ledger accountId s.depositAmount = none) :
    enactRegistration id accountId keys s = (.err (.pallet .cannotAffordSecurityDeposit), s) := by
  have hreserve : reserve accountId s.depositAmount s =
      (.err (.pallet .cannotAffordSecurityDeposit), s) := by
    simp only [reserve, h]
  unfold enactRegistration
  rw [Call.get_bind, Call.bind_err hreserve]

theorem registerKeys_cases (id : NimbusId) (accountId : AccountId) (keys : Keys) (s : State C) :
    (∃ e, registerKeys id accountId keys s = (.err e, s)) ∨
      ∃ ledger, s.mappingWithDeposit.lookup id = none ∧
        C.depositCurrency.reserve s.ledger accountId s.depositAmount = some ledger ∧
        registerKeys id accountId keys s = (.ok (),
          (s.registered id accountId keys ledger).withEvents
            (s.events ++ [.keysRegistered id accountId keys])) := by
  unfold registerKeys
  rw [Call.get_bind, Call.ensure_bind]
  split_ifs with hfree
  · rcases hr : C.depositCurrency.reserve s.ledger accountId s.depositAmount with _ | ledger
    · exact .inl ⟨_, Call.bind_err (enactRegistration_err hr)⟩
    · refine .inr ⟨ledger, Option.isNone_iff_eq_none.1 hfree, rfl, ?_⟩
      rw [Call.bind_ok (enactRegistration_ok hr)]
      rfl
  · exact .inl ⟨_, rfl⟩

theorem rotateKeys_ok (hold : s.mappingWithDeposit.lookup old = some info)
    (hnew : old ≠ new → s.mappingWithDeposit.lookup new = none) :
    rotateKeys old new info.account keys s = (.ok (), (s.rotated old new info keys).withEvents
      (s.events ++ [.keysRotated new info.account keys])) := by
  unfold rotateKeys
  rw [Call.get_bind, hold]
  simp only [Call.okOr_some, Call.pure_bind_apply, Call.ensure_bind, if_true]
  by_cases hne : old ≠ new
  · simp only [if_pos hne, hnew hne, Option.isNone_none, Call.ensure_bind, if_true,
      Call.modify_bind]
    rfl
  · simp only [if_neg hne, Call.modify_bind]
    rfl

theorem rotateKeys_occupied (hold : s.mappingWithDeposit.lookup old = some info) (hne : old ≠ new)
    (hnew : s.mappingWithDeposit.lookup new ≠ none) :
    rotateKeys old new info.account keys s = (.err (.pallet .alreadyAssociated), s) := by
  have hsome : ¬ (s.mappingWithDeposit.lookup new).isNone = true := by simpa using hnew
  unfold rotateKeys
  rw [Call.get_bind, hold]
  simp only [Call.okOr_some, Call.pure_bind_apply, Call.ensure_bind, if_true, if_pos hne,
    if_neg hsome]

/-- A rotation is refused, or the signer owns the old id and the new one is free for it. -/
theorem rotateKeys_cases (old new : NimbusId) (accountId : AccountId) (keys : Keys) (s : State C) :
    (∃ e, rotateKeys old new accountId keys s = (.err e, s)) ∨
      ∃ info, s.mappingWithDeposit.lookup old = some info ∧ info.account = accountId ∧
        (old ≠ new → s.mappingWithDeposit.lookup new = none) := by
  rcases hold : s.mappingWithDeposit.lookup old with _ | info
  · refine .inl ⟨.pallet .associationNotFound, ?_⟩
    unfold rotateKeys
    rw [Call.get_bind, hold]
    rfl
  · by_cases haccount : accountId = info.account
    · by_cases hnew : old ≠ new → s.mappingWithDeposit.lookup new = none
      · exact .inr ⟨info, rfl, haccount.symm, hnew⟩
      · push Not at hnew
        rw [haccount]
        exact .inl ⟨_, rotateKeys_occupied hold hnew.1 hnew.2⟩
    · refine .inl ⟨.pallet .notYourAssociation, ?_⟩
      unfold rotateKeys
      rw [Call.get_bind, hold]
      simp only [Call.okOr_some, Call.pure_bind_apply, Call.ensure_bind, if_neg haccount]

theorem rotateKeys_ledger (old new : NimbusId) (accountId : AccountId) (keys : Keys) (s : State C) :
    (rotateKeys old new accountId keys s).2.ledger = s.ledger := by
  rcases rotateKeys_cases old new accountId keys s with ⟨e, he⟩ | ⟨info, hold, rfl, hnew⟩
  · rw [he]
  · rw [rotateKeys_ok hold hnew]
    rfl

theorem removeKeys_some (h : nimbusIdOf s accountId = some id) :
    removeKeys (.signed accountId) s = rmKeys id accountId s := by
  unfold removeKeys ensureSigned
  rw [Call.pure_bind_apply, Call.get_bind, h]
  rfl

theorem removeKeys_none (h : nimbusIdOf s accountId = none) :
    removeKeys (.signed accountId) s = (.err (.pallet .oldAuthorIdNotFound), s) := by
  unfold removeKeys ensureSigned
  rw [Call.pure_bind_apply, Call.get_bind, h]
  rfl

/-- The input of `set_keys` has the right size and decodes to an id and keys. -/
structure Decodes (C : Config AccountId Keys Ledger) (bytes : List UInt8) (id : NimbusId)
    (keys : Keys) : Prop where
  length : bytes.length = keysSize C
  nimbusId : Bytes.decode 32 bytes = some id
  keys : C.decodeKeys (bytes.drop 32) = some keys

theorem setKeys_some {bytes : List UInt8} (h : Decodes C bytes id keys)
    (hold : nimbusIdOf s accountId = some old) :
    setKeys (.signed accountId) bytes s = rotateKeys old id accountId keys s := by
  unfold setKeys ensureSigned
  rw [Call.pure_bind_apply, Call.ensure_bind, if_pos h.length, h.nimbusId, h.keys]
  simp only [Call.okOr_some, Call.pure_bind_apply, Call.get_bind, hold]

theorem setKeys_none {bytes : List UInt8} (h : Decodes C bytes id keys)
    (hold : nimbusIdOf s accountId = none) :
    setKeys (.signed accountId) bytes s = registerKeys id accountId keys s := by
  unfold setKeys ensureSigned
  rw [Call.pure_bind_apply, Call.ensure_bind, if_pos h.length, h.nimbusId, h.keys]
  simp only [Call.okOr_some, Call.pure_bind_apply, Call.get_bind, hold]

theorem setKeys_cases (accountId : AccountId) (bytes : List UInt8) (s : State C) :
    (∃ e, setKeys (.signed accountId) bytes s = (.err e, s)) ∨
      ∃ id keys, Decodes C bytes id keys := by
  unfold setKeys ensureSigned
  rw [Call.pure_bind_apply, Call.ensure_bind]
  split_ifs with hlength
  · rcases hid : Bytes.decode 32 bytes with _ | id
    · exact .inl ⟨_, rfl⟩
    · rcases hkeys : C.decodeKeys (bytes.drop 32) with _ | keys
      · exact .inl ⟨_, rfl⟩
      · exact .inr ⟨id, keys, hlength, hid, hkeys⟩
  · exact .inl ⟨_, rfl⟩

end Calls

section Effect

/-- The account that signed the operation. -/
def Op.signer : Op C → Option AccountId
  | .addAssociation (.signed accountId) _ => some accountId
  | .updateAssociation (.signed accountId) _ _ => some accountId
  | .clearAssociation (.signed accountId) _ => some accountId
  | .removeKeys (.signed accountId) => some accountId
  | .setKeys (.signed accountId) _ => some accountId
  | _ => none

/-- The account and the id whose registration the operation asks to remove. -/
def Op.removes (s : State C) : Op C → Option (AccountId × NimbusId)
  | .clearAssociation (.signed accountId) nimbusId => some (accountId, nimbusId)
  | .removeKeys (.signed accountId) => (nimbusIdOf s accountId).map fun id => (accountId, id)
  | _ => none

/-- What an operation that succeeds does. -/
inductive Effect (s : State C) (op : Op C) : State C → Prop
  | registered {accountId : AccountId} {id : NimbusId} {keys : Keys} {ledger : Ledger}
      {events : List (Event AccountId Keys)} (hop : op.signer = some accountId)
      (hfree : s.mappingWithDeposit.lookup id = none)
      (hreserve : C.depositCurrency.reserve s.ledger accountId s.depositAmount = some ledger) :
      Effect s op ((s.registered id accountId keys ledger).withEvents events)
  | rotated {old new : NimbusId} {info : RegistrationInfo C} {keys : Keys}
      {events : List (Event AccountId Keys)} (hop : op.signer = some info.account)
      (hold : s.mappingWithDeposit.lookup old = some info)
      (hnew : (s.mappingWithDeposit.erase old).lookup new = none) :
      Effect s op ((s.rotated old new info keys).withEvents events)
  | removed {id : NimbusId} {info : RegistrationInfo C} {events : List (Event AccountId Keys)}
      (hop : op.removes s = some (info.account, id))
      (hinfo : s.mappingWithDeposit.lookup id = some info) :
      Effect s op ((s.removed id info).withEvents events)
  | elsewhere {ledger : Ledger} {depositAmount : Balance C}
      (hop : op = .elsewhere ledger depositAmount) :
      Effect s op { s with ledger := ledger, depositAmount := depositAmount }

variable {accountId : AccountId} {op : Op C}

theorem rmKeys_effect (op : Op C) {id : NimbusId} (hop : op.removes s = some (accountId, id)) :
    (∃ e, rmKeys id accountId s = (.err e, s)) ∨
      (rmKeys id accountId s).1 = .ok () ∧ Effect s op (rmKeys id accountId s).2 := by
  rcases rmKeys_cases id accountId s with ⟨e, -, he⟩ | ⟨info, hinfo, rfl⟩
  · exact .inl ⟨_, he⟩
  · rw [rmKeys_ok hinfo]
    exact .inr ⟨rfl, .removed hop hinfo⟩

theorem registerKeys_effect (hop : op.signer = some accountId) (id : NimbusId) (keys : Keys) :
    (∃ e, registerKeys id accountId keys s = (.err e, s)) ∨
      (registerKeys id accountId keys s).1 = .ok () ∧
        Effect s op (registerKeys id accountId keys s).2 := by
  rcases registerKeys_cases id accountId keys s with he | ⟨ledger, hfree, hreserve, h⟩
  · exact .inl he
  · rw [h]
    exact .inr ⟨rfl, .registered hop hfree hreserve⟩

theorem rotateKeys_effect (hop : op.signer = some accountId) (old new : NimbusId) (keys : Keys) :
    (∃ e, rotateKeys old new accountId keys s = (.err e, s)) ∨
      (rotateKeys old new accountId keys s).1 = .ok () ∧
        Effect s op (rotateKeys old new accountId keys s).2 := by
  rcases rotateKeys_cases old new accountId keys s with he | ⟨info, hold, rfl, hnew⟩
  · exact .inl he
  · rw [rotateKeys_ok hold hnew]
    refine .inr ⟨rfl, .rotated hop hold ?_⟩
    by_cases hne : old = new
    · subst hne
      exact Finmap.lookup_erase old _
    · rw [Finmap.lookup_erase_ne (Ne.symm hne)]
      exact hnew hne

/-- An operation that asks to remove a registration runs `rm_keys` on it. -/
theorem run_of_removes {id : NimbusId} (hop : op.removes s = some (accountId, id)) :
    op.run s = rmKeys id accountId s := by
  cases op with
  | clearAssociation origin id' =>
    cases origin with
    | signed a =>
      simp only [Op.removes, Option.some.injEq, Prod.mk.injEq] at hop
      obtain ⟨rfl, rfl⟩ := hop
      rfl
    | _ => simp [Op.removes] at hop
  | removeKeys origin =>
    cases origin with
    | signed a =>
      simp only [Op.removes, Option.map_eq_some_iff, Prod.mk.injEq] at hop
      obtain ⟨id', hid, rfl, rfl⟩ := hop
      exact removeKeys_some hid
    | _ => simp [Op.removes] at hop
  | _ => simp [Op.removes] at hop

/-- An operation is refused and changes nothing, or it has one of the four effects. -/
theorem exec_effect (s : State C) (op : Op C) :
    (∃ e, op.run s = (.err e, s)) ∨ (op.run s).1 = .ok () ∧ Effect s op (op.run s).2 := by
  cases op with
  | addAssociation origin id =>
    cases origin with
    | signed accountId => exact registerKeys_effect rfl id _
    | _ => exact .inl ⟨.badOrigin, rfl⟩
  | updateAssociation origin old new =>
    cases origin with
    | signed accountId => exact rotateKeys_effect rfl old new _
    | _ => exact .inl ⟨.badOrigin, rfl⟩
  | clearAssociation origin id =>
    cases origin with
    | signed accountId => exact rmKeys_effect (.clearAssociation (.signed accountId) id) rfl
    | _ => exact .inl ⟨.badOrigin, rfl⟩
  | removeKeys origin =>
    cases origin with
    | signed accountId =>
      rcases hid : nimbusIdOf s accountId with _ | id
      · exact .inl ⟨_, removeKeys_none hid⟩
      · have hop : (Op.removeKeys (.signed accountId)).removes s = some (accountId, id) := by
          simp only [Op.removes, hid, Option.map_some]
        rw [run_of_removes hop]
        exact rmKeys_effect _ hop
    | _ => exact .inl ⟨.badOrigin, rfl⟩
  | setKeys origin bytes =>
    cases origin with
    | signed accountId =>
      show (∃ e, setKeys (.signed accountId) bytes s = (.err e, s)) ∨
        (setKeys (.signed accountId) bytes s).1 = .ok () ∧
          Effect s _ (setKeys (.signed accountId) bytes s).2
      rcases setKeys_cases accountId bytes s with he | ⟨id, keys, hdecodes⟩
      · exact .inl he
      · rcases hold : nimbusIdOf s accountId with _ | old
        · rw [setKeys_none hdecodes hold]
          exact registerKeys_effect rfl id keys
        · rw [setKeys_some hdecodes hold]
          exact rotateKeys_effect rfl old id keys
    | _ => exact .inl ⟨.badOrigin, rfl⟩
  | elsewhere ledger depositAmount => exact .inr ⟨rfl, .elsewhere rfl⟩

/-- What holds of a state and of every effect on it holds after the operation. -/
theorem of_effect {P : State C → Prop} (hs : P s) (hP : ∀ s', Effect s op s' → P s') :
    P (op.run s).2 := by
  rcases exec_effect s op with ⟨e, he⟩ | ⟨-, heffect⟩
  · rw [he]
    exact hs
  · exact hP _ heffect

end Effect

section Genesis

variable {P : State C → Prop}

/-- What every registration keeps holds after a genesis with pairwise distinct ids. -/
theorem build_invariant (hP : ∀ {s s' : State C} {accountId : AccountId} {id : NimbusId}, P s →
      Effect s (.addAssociation (.signed accountId) id) s' → P s') :
    ∀ (mappings : List (NimbusId × AccountId)) (s : State C), (mappings.map Prod.fst).Nodup →
    (∀ id ∈ mappings.map Prod.fst, s.mappingWithDeposit.lookup id = none) → P s →
    P (build mappings s)
  | [], _, _, _, hs => hs
  | (id, accountId) :: mappings, s, hnodup, hfree, hs => by
    obtain ⟨hnot, hnodup⟩ := List.nodup_cons.1 hnodup
    have hfree' (id' : NimbusId) (hid' : id' ∈ mappings.map Prod.fst) :
        s.mappingWithDeposit.lookup id' = none := hfree id' (List.mem_cons_of_mem _ hid')
    unfold build
    rcases hr : C.depositCurrency.reserve s.ledger accountId s.depositAmount with _ | ledger
    · rw [enactRegistration_err hr]
      exact build_invariant hP mappings s hnodup hfree' hs
    · have heffect : Effect s (.addAssociation (.signed accountId) id)
          ((s.registered id accountId (C.keysFrom id) ledger).withEvents s.events) :=
        .registered rfl (hfree id List.mem_cons_self) hr
      rw [enactRegistration_ok hr]
      refine build_invariant hP mappings _ hnodup (fun id' hid' => ?_) (hP hs heffect)
      have hne : id' ≠ id := fun h => hnot (h ▸ hid')
      simp only [State.registered, Finmap.lookup_insert_of_ne _ hne]
      exact hfree' id' hid'

/-- What holds of empty storage and is kept by every allowed effect holds along every run. -/
theorem run_invariant {fresh : Ledger → Prop} {allow : State C → Op C → Prop}
    (hadd : ∀ s accountId id, allow s (.addAssociation (.signed accountId) id))
    (hempty : ∀ ledger depositAmount, fresh ledger → P (.empty ledger depositAmount))
    (hP : ∀ {s s' : State C} {op : Op C}, P s → allow s op → Effect s op s' → P s')
    {h : List (RunEvent C)} {s : State C}
    (hr : (machine C fresh).Run (fun _ s op => allow s op) h s) : P s := by
  induction hr with
  | start hgenesis =>
    obtain ⟨mappings, ledger, depositAmount, hnodup, hfresh, rfl⟩ := hgenesis
    exact build_invariant (fun hs heffect => hP hs (hadd _ _ _) heffect) mappings _ hnodup
      (fun _ _ => rfl) (hempty ledger depositAmount hfresh)
  | step hr ha ih =>
    exact of_effect ih fun _ heffect => hP ih ha heffect

end Genesis

section Reverse

/-- The id that the reverse lookup gives for an account is registered by that account. -/
def ReverseTrue (s : State C) : Prop :=
  ReverseIndex.Sound RegistrationInfo.account s.mappingWithDeposit s.nimbusLookup

theorem reverseTrue_effect {op : Op C} (hs : ReverseTrue s) (heffect : Effect s op s') :
    ReverseTrue s' := by
  cases heffect with
  | registered _ hfree _ => exact ReverseIndex.Sound.insert hs hfree
  | rotated _ hold hnew => exact ReverseIndex.Sound.move hs hold hnew rfl
  | removed _ hinfo => exact ReverseIndex.Sound.erase hs hinfo
  | elsewhere _ => exact hs

theorem reverseTrue_of_run {h : List (RunEvent C)}
    (hr : (machine C fun _ => True).Run (fun _ _ _ => True) h s) : ReverseTrue s := by
  refine run_invariant (fun _ _ _ => trivial) ?_
    (fun hs _ heffect => reverseTrue_effect hs heffect) hr
  intro ledger depositAmount _ a n hlookup
  simp [State.empty] at hlookup

/-- **The reverse lookup.** In every state of a run, an account whose lookup gives an id owns the
registration of that id. So `remove_keys` succeeds for it, and `set_keys` with keys that decode
succeeds unless another id is asked for that is registered. -/
theorem reverse_lookup_true {h : List (RunEvent C)}
    (hr : (machine C fun _ => True).Run (fun _ _ _ => True) h s) {a : AccountId} {n : NimbusId}
    (hlookup : nimbusIdOf s a = some n) :
    (∃ info, s.mappingWithDeposit.lookup n = some info ∧ info.account = a) ∧
    (removeKeys (.signed a) s).1 = .ok () ∧
    ∀ bytes id keys, Decodes C bytes id keys → (setKeys (.signed a) bytes s).1 =
      if id ≠ n ∧ (s.mappingWithDeposit.lookup id).isSome then .err (.pallet .alreadyAssociated)
      else .ok () := by
  obtain ⟨info, hinfo, rfl⟩ := reverseTrue_of_run hr a n hlookup
  refine ⟨⟨info, hinfo, rfl⟩, ?_, fun bytes id keys hdecodes => ?_⟩
  · rw [removeKeys_some hlookup, rmKeys_ok hinfo]
  · rw [setKeys_some hdecodes hlookup]
    split_ifs with hocc
    · rw [rotateKeys_occupied hinfo hocc.1.symm (Option.isSome_iff_ne_none.1 hocc.2)]
    · have hnew (hne : n ≠ id) : s.mappingWithDeposit.lookup id = none := by
        by_contra hsome
        exact hocc ⟨hne.symm, Option.isSome_iff_ne_none.2 hsome⟩
      rw [rotateKeys_ok hinfo hnew]

/-- Account 2, registered as Bob at genesis, rotates to Charlie. -/
theorem reverse_lookup_true_test :
    (removeKeys (.signed 2) (Mock.calls [(Mock.bob, 2)]
        [.updateAssociation (.signed 2) Mock.bob Mock.charlie]).2).1 = .ok () ∧
      nimbusIdOf (Mock.calls [(Mock.bob, 2)]
        [.updateAssociation (.signed 2) Mock.bob Mock.charlie]).2 2 = some Mock.charlie := by
  have hlookup : nimbusIdOf (Mock.calls [(Mock.bob, 2)]
      [.updateAssociation (.signed 2) Mock.bob Mock.charlie]).2 2 = some Mock.charlie := by
    decide +kernel
  exact ⟨(reverse_lookup_true (Mock.run_calls _ (by decide) _) hlookup).2.1, hlookup⟩

end Reverse

section Owners

/-- The operation removes a registration of an account that owns another one. -/
def RemovesOneOfSeveral (s : State C) (op : Op C) : Prop :=
  ∃ a n n', op.removes s = some (a, n) ∧ s.Owns a n ∧ n' ≠ n ∧ s.Owns a n'

/-- The pallet finds the registration of the account: the lookup has an entry for it, `remove_keys`
does not miss its id, and `set_keys` takes no deposit. -/
structure Found (s : State C) (a : AccountId) : Prop where
  lookup : (nimbusIdOf s a).isSome
  removeKeys : (removeKeys (.signed a) s).1 ≠ .err (.pallet .oldAuthorIdNotFound)
  setKeys : ∀ bytes, (setKeys (.signed a) bytes s).2.ledger = s.ledger

theorem found_of_lookup {a : AccountId} (h : (nimbusIdOf s a).isSome) : Found s a := by
  obtain ⟨n, hn⟩ := Option.isSome_iff_exists.1 h
  refine ⟨h, ?_, fun bytes => ?_⟩
  · rw [removeKeys_some hn]
    rcases rmKeys_cases n a s with ⟨e, hmem, he⟩ | ⟨info, hinfo, rfl⟩
    · rw [he]
      rintro ⟨⟩
      simp at hmem
    · rw [rmKeys_ok hinfo]
      simp
  · rcases setKeys_cases a bytes s with ⟨e, he⟩ | ⟨id, keys, hdecodes⟩
    · rw [he]
    · rw [setKeys_some hdecodes hn, rotateKeys_ledger]

/-- Every account with a registration has an entry in the lookup. -/
def OwnersListed (s : State C) : Prop :=
  ReverseIndex.Complete RegistrationInfo.account s.mappingWithDeposit s.nimbusLookup

theorem ownersListed_effect {op : Op C} (hs : OwnersListed s) (hop : ¬ RemovesOneOfSeveral s op)
    (heffect : Effect s op s') : OwnersListed s' := by
  cases heffect with
  | registered _ _ _ => exact ReverseIndex.Complete.insert hs
  | rotated _ _ _ => exact ReverseIndex.Complete.move hs rfl
  | removed hremoves hinfo =>
    refine ReverseIndex.Complete.erase hs fun n hne hown => hop ?_
    exact ⟨_, _, n, hremoves, owns_iff.2 ⟨_, hinfo, rfl⟩, hne, owns_iff.2 hown⟩
  | elsewhere _ => exact hs

/-- An account that loses one of several registrations is not found by the others. -/
theorem not_ownersListed_of_removes {op : Op C} (hop : RemovesOneOfSeveral s op) :
    ¬ OwnersListed (op.run s).2 := by
  obtain ⟨a, n, n', hremoves, hown, hne, hown'⟩ := hop
  obtain ⟨info, hinfo, rfl⟩ := owns_iff.1 hown
  rw [run_of_removes hremoves, rmKeys_ok hinfo]
  exact ReverseIndex.Complete.not_erase hne (owns_iff.1 hown')

/-- **Owners are found.** Along a run every account with a registration is found in every state if
and only if no operation removes a registration of an account that owns another one. -/
theorem owners_found_iff {h : List (RunEvent C)}
    (hr : (machine C fun _ => True).Run (fun _ _ _ => True) h s) :
    (∀ t ∈ s :: h.map Machine.Event.before, ∀ a n, t.Owns a n → Found t a) ↔
      ∀ e ∈ h, ¬ RemovesOneOfSeveral e.before e.op := by
  have hfound (t : State C) : (∀ a n, t.Owns a n → Found t a) ↔ OwnersListed t :=
    ⟨fun hf a n hown => (hf a n (owns_iff.2 hown)).lookup,
      fun hl a n hown => found_of_lookup (hl a n (owns_iff.1 hown))⟩
  simp only [hfound]
  refine hr.forall_iff ?_ ?_ fun _ _ => not_ownersListed_of_removes
  · rintro _ ⟨mappings, ledger, depositAmount, hnodup, -, rfl⟩
    refine build_invariant (fun hs heffect => ownersListed_effect hs ?_ heffect) mappings _ hnodup
      (fun _ _ => rfl) ?_
    · simp [RemovesOneOfSeveral, Op.removes]
    · simp [OwnersListed, ReverseIndex.Complete, ReverseIndex.Owns, State.empty]
  · intro s op hs hop
    exact of_effect hs fun _ heffect => ownersListed_effect hs hop heffect

/-- Account 2 registers Bob and Alice and rotates Bob to Charlie. -/
def oneOfTwoRotated : List (RunEvent Mock.test) × State Mock.test :=
  Mock.calls [] [.addAssociation (.signed 2) Mock.bob, .addAssociation (.signed 2) Mock.alice,
    .updateAssociation (.signed 2) Mock.bob Mock.charlie]

theorem owners_found_test :
    oneOfTwoRotated.2.Owns 2 Mock.alice ∧ Found oneOfTwoRotated.2 2 := by
  have hgood : ∀ e ∈ oneOfTwoRotated.1, ¬ RemovesOneOfSeveral e.before e.op := by
    simp [oneOfTwoRotated, Mock.calls, Machine.replay, Machine.event, RemovesOneOfSeveral,
      Op.removes]
  have hown : oneOfTwoRotated.2.Owns 2 Mock.alice := by
    unfold State.Owns
    decide +kernel
  have hfound := (owners_found_iff (Mock.run_calls [] (by decide) _)).2 hgood
  exact ⟨hown, hfound _ List.mem_cons_self 2 Mock.alice hown⟩

/-- Account 2 registers Bob and Alice and clears Bob. -/
def oneOfTwoCleared : List (RunEvent Mock.test) × State Mock.test :=
  Mock.calls [] [.addAssociation (.signed 2) Mock.bob, .addAssociation (.signed 2) Mock.alice,
    .clearAssociation (.signed 2) Mock.bob]

/-- `remove_keys` then misses Alice, and `set_keys` takes another deposit. -/
theorem owner_not_found_after_clear :
    (machine Mock.test fun _ => True).Run (fun _ _ _ => True) oneOfTwoCleared.1 oneOfTwoCleared.2 ∧
      oneOfTwoCleared.2.Owns 2 Mock.alice ∧ nimbusIdOf oneOfTwoCleared.2 2 = none ∧
      (removeKeys (.signed 2) oneOfTwoCleared.2).1 = .err (.pallet .oldAuthorIdNotFound) ∧
      (oneOfTwoCleared.2.ledger 2).reserved = 100 ∧
      ((setKeys (.signed 2) (Bytes.encode Mock.charlie ++ Bytes.encode Mock.charlie)
        oneOfTwoCleared.2).2.ledger 2).reserved = 200 := by
  refine ⟨Mock.run_calls [] (by decide) _, ?_, ?_, ?_, ?_, ?_⟩
  · unfold State.Owns
    decide +kernel
  · decide +kernel
  · decide +kernel
  · decide +kernel
  · decide +kernel

end Owners

end AuthorMapping

end Moonkit
