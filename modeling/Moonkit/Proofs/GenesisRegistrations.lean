import Moonkit.AuthorMappingMock
import Moonkit.Base.LastWrite
import Moonkit.Proofs.Deposits

/-!
# The registrations of a genesis

A genesis registers its entries one after the other as `add_association` would, but without looking
whether a nimbus id is registered already. An account that can pay for such an id again overwrites
the registration, whose deposit stays reserved: what is reserved beyond the registrations never
decreases and grows exactly there (`build_excess_pos`), while the extrinsic keeps the two equal.
Where no deposit is asked for, the last entry of an id stands instead of the first.
-/

namespace Moonkit

namespace AuthorMapping

open LastWrite

variable {AccountId Keys Ledger : Type} [DecidableEq AccountId] {C : Config AccountId Keys Ledger}

/-- The extrinsic for each entry in order. One that fails leaves nothing. -/
def addAll : List (NimbusId × AccountId) → State C → State C
  | [], s => s
  | (nimbusId, accountId) :: mappings, s =>
    addAll mappings ((addAssociation (.signed accountId) nimbusId).transactional s).2

/-- The registrations, the reverse lookup and the reserved balances are the same. -/
structure SameRegistrations (s s' : State C) : Prop where
  mappingWithDeposit : s.mappingWithDeposit = s'.mappingWithDeposit
  nimbusLookup : s.nimbusLookup = s'.nimbusLookup
  reserved : ∀ a, C.depositCurrency.reservedBalance s.ledger a =
    C.depositCurrency.reservedBalance s'.ledger a

/-- An account that can reserve the deposit, after the entries before it that could, does so for a
nimbus id of one of them or of `seen`. -/
def PaysAgain (currency : ReservableCurrency AccountId Ledger C.balanceMax) (deposit : Balance C) :
    List NimbusId → List (NimbusId × AccountId) → Ledger → Prop
  | _, [], _ => False
  | seen, (nimbusId, accountId) :: mappings, ledger =>
    match currency.reserve ledger accountId deposit with
    | some ledger' => nimbusId ∈ seen ∨
      PaysAgain currency deposit (nimbusId :: seen) mappings ledger'
    | none => PaysAgain currency deposit seen mappings ledger

instance decidablePaysAgain (currency : ReservableCurrency AccountId Ledger C.balanceMax)
    (deposit : Balance C) : (seen : List NimbusId) → (mappings : List (NimbusId × AccountId)) →
    (ledger : Ledger) → Decidable (PaysAgain currency deposit seen mappings ledger)
  | _, [], _ => inferInstanceAs (Decidable False)
  | seen, (nimbusId, accountId) :: mappings, ledger =>
    match hr : currency.reserve ledger accountId deposit with
    | some ledger' =>
      have := decidablePaysAgain currency deposit (nimbusId :: seen) mappings ledger'
      decidable_of_iff (nimbusId ∈ seen ∨
        PaysAgain currency deposit (nimbusId :: seen) mappings ledger')
        (by rw [PaysAgain, hr])
    | none =>
      have := decidablePaysAgain currency deposit seen mappings ledger
      decidable_of_iff (PaysAgain currency deposit seen mappings ledger) (by rw [PaysAgain, hr])

/-- Each nimbus id and each account has the same last entry in the list as among the entries whose
nimbus id has not come before. -/
def SameLast (mappings : List (NimbusId × AccountId)) : Prop :=
  (∀ id, lastBy Prod.fst id mappings = lastBy Prod.fst id (firstsBy Prod.fst [] mappings)) ∧
    ∀ a, lastBy Prod.snd a mappings = lastBy Prod.snd a (firstsBy Prod.fst [] mappings)

/-- What an entry registers where no deposit is asked for. -/
def freeInfo (entry : NimbusId × AccountId) : RegistrationInfo C :=
  ⟨entry.2, 0, C.keysFrom entry.1⟩

variable {s s' : State C} {id : NimbusId} {accountId : AccountId} {ledger : Ledger}

/-- The state has a registration for exactly these nimbus ids. -/
def Registers (s : State C) (seen : List NimbusId) : Prop :=
  ∀ id, s.mappingWithDeposit.lookup id = none ↔ id ∉ seen

omit [DecidableEq AccountId] in
theorem Registers.info {seen : List NimbusId} (hs : Registers s seen) (hid : id ∈ seen) :
    ∃ info, s.mappingWithDeposit.lookup id = some info :=
  Option.ne_none_iff_exists'.1 fun hnone => (hs id).1 hnone hid

theorem registers_registered (accountId : AccountId) (keys : Keys) (ledger : Ledger)
    {seen : List NimbusId} (hs : Registers s seen) :
    Registers (s.registered id accountId keys ledger) (id :: seen) := by
  intro id'
  show (s.mappingWithDeposit.insert id _).lookup id' = none ↔ _
  rw [ReverseIndex.lookup_index_insert, List.mem_cons, not_or]
  split_ifs with hid
  · simp [hid]
  · simp [hid, hs id']

section Steps

variable {mappings : List (NimbusId × AccountId)}

theorem build_poor (h : C.depositCurrency.reserve s.ledger accountId s.depositAmount = none) :
    build ((id, accountId) :: mappings) s = build mappings s := by
  rw [build, enactRegistration_err h]

theorem build_paid
    (h : C.depositCurrency.reserve s.ledger accountId s.depositAmount = some ledger) :
    build ((id, accountId) :: mappings) s =
      build mappings (s.registered id accountId (C.keysFrom id) ledger) := by
  rw [build, enactRegistration_ok h]

/-- The extrinsic leaves nothing where the id is registered or the deposit cannot be reserved. -/
theorem addAssociation_refused
    (h : s.mappingWithDeposit.lookup id = none →
      C.depositCurrency.reserve s.ledger accountId s.depositAmount = none) :
    ((addAssociation (.signed accountId) id).transactional s).2 = s := by
  rcases Call.transactional_cases (addAssociation (.signed accountId) id) s with
    ⟨u, s₁, hrun, -⟩ | ⟨-, hsame⟩
  · rcases registerKeys_cases id accountId (C.keysFrom id) s with ⟨e, herr⟩ | ⟨_, hfree, hpaid, -⟩
    · have herr' : addAssociation (.signed accountId) id s = (.err e, s) := herr
      rw [herr'] at hrun
      simp at hrun
    · rw [h hfree] at hpaid
      cases hpaid
  · exact hsame

theorem addAssociation_registered {info : RegistrationInfo C}
    (hinfo : s.mappingWithDeposit.lookup id = some info) :
    ((addAssociation (.signed accountId) id).transactional s).2 = s := by
  refine addAssociation_refused fun hfree => ?_
  rw [hinfo] at hfree
  cases hfree

theorem addAssociation_ok (hfree : s.mappingWithDeposit.lookup id = none)
    (h : C.depositCurrency.reserve s.ledger accountId s.depositAmount = some ledger) :
    ∃ events, ((addAssociation (.signed accountId) id).transactional s).2 =
      (s.registered id accountId (C.keysFrom id) ledger).withEvents events := by
  have hrun : addAssociation (.signed accountId) id s = (.ok (),
      (s.registered id accountId (C.keysFrom id) ledger).withEvents
        (s.events ++ [.keysRegistered id accountId (C.keysFrom id)])) := by
    show registerKeys id accountId (C.keysFrom id) s = _
    unfold registerKeys
    rw [Call.get_bind, Call.ensure_bind, if_pos (Option.isNone_iff_eq_none.2 hfree),
      Call.bind_ok (enactRegistration_ok h)]
    rfl
  exact ⟨_, congrArg Prod.snd (Call.transactional_ok hrun)⟩

end Steps

/-- While no account pays for an id again, both do the same. -/
theorem addAll_of_not_paysAgain : ∀ (mappings : List (NimbusId × AccountId)) {s : State C}
    {seen : List NimbusId} (events : List (Event AccountId Keys)), Registers s seen →
    ¬ PaysAgain C.depositCurrency s.depositAmount seen mappings s.ledger →
    ∃ events', addAll mappings (s.withEvents events) = (build mappings s).withEvents events'
  | [], s, seen, events, _, _ => ⟨events, rfl⟩
  | (id, a) :: mappings, s, seen, events, hs, hpays => by
    unfold PaysAgain at hpays
    unfold addAll
    have hreserve : C.depositCurrency.reserve (s.withEvents events).ledger a
        (s.withEvents events).depositAmount =
          C.depositCurrency.reserve s.ledger a s.depositAmount := rfl
    rcases hr : C.depositCurrency.reserve s.ledger a s.depositAmount with _ | ledger
    · rw [hr] at hpays hreserve
      rw [addAssociation_refused fun _ => hreserve, build_poor hr]
      exact addAll_of_not_paysAgain mappings events hs hpays
    · rw [hr] at hpays hreserve
      simp only [not_or] at hpays
      obtain ⟨events', hadd⟩ := addAssociation_ok (s := s.withEvents events) ((hs id).2 hpays.1)
        hreserve
      rw [hadd, build_paid hr]
      exact addAll_of_not_paysAgain mappings events' (registers_registered _ _ _ hs) hpays.2

section Excess

/-- What is reserved on the account beyond the deposits of its registrations. -/
def excess (s : State C) (a : AccountId) : ℤ :=
  (C.depositCurrency.reservedBalance s.ledger a).val - deposited s a

theorem reserved_registered (id : NimbusId) (keys : Keys)
    (h : C.depositCurrency.reserve s.ledger accountId s.depositAmount = some ledger)
    (a : AccountId) :
    (C.depositCurrency.reservedBalance (s.registered id accountId keys ledger).ledger a).val =
      (C.depositCurrency.reservedBalance s.ledger a).val +
        if accountId = a then s.depositAmount.val else 0 := by
  show (C.depositCurrency.reservedBalance ledger a).val = _
  split_ifs with ha
  · rw [← ha]
    exact C.depositCurrency.reserve_reserved h
  · rw [(C.depositCurrency.reserve_other h a (Ne.symm ha)).2, Nat.add_zero]

theorem excess_fresh {keys : Keys} (hfree : s.mappingWithDeposit.lookup id = none)
    (h : C.depositCurrency.reserve s.ledger accountId s.depositAmount = some ledger)
    (a : AccountId) : excess (s.registered id accountId keys ledger) a = excess s a := by
  have hdeposited : deposited (s.registered id accountId keys ledger) a =
      deposited s a + if accountId = a then s.depositAmount.val else 0 :=
    deposited_registered hfree a
  have hreserved := reserved_registered id keys h a
  unfold excess
  omega

/-- The deposit of a registration that is overwritten stays reserved. -/
theorem excess_again {keys : Keys} {info : RegistrationInfo C}
    (hinfo : s.mappingWithDeposit.lookup id = some info)
    (h : C.depositCurrency.reserve s.ledger accountId s.depositAmount = some ledger)
    (a : AccountId) : excess (s.registered id accountId keys ledger) a =
      excess s a + if info.account = a then info.deposit.val else 0 := by
  have hdeposited : deposited (s.registered id accountId keys ledger) a +
      (if info.account = a then info.deposit.val else 0) =
        deposited s a + if accountId = a then s.depositAmount.val else 0 :=
    Finmap.total_insert_add hinfo
  have hreserved := reserved_registered id keys h a
  unfold excess
  split_ifs at hdeposited hreserved ⊢ <;> omega

theorem excess_registered_le {keys : Keys}
    (h : C.depositCurrency.reserve s.ledger accountId s.depositAmount = some ledger)
    (a : AccountId) : excess s a ≤ excess (s.registered id accountId keys ledger) a := by
  rcases hinfo : s.mappingWithDeposit.lookup id with _ | info
  · exact (excess_fresh hinfo h a).ge
  · rw [excess_again hinfo h a]
    omega

theorem build_excess_le (a : AccountId) : ∀ (mappings : List (NimbusId × AccountId)) (s : State C),
    excess s a ≤ excess (build mappings s) a
  | [], s => le_refl _
  | (id, b) :: mappings, s => by
    rcases hr : C.depositCurrency.reserve s.ledger b s.depositAmount with _ | ledger
    · rw [build_poor hr]
      exact build_excess_le a mappings s
    · rw [build_paid hr]
      exact (excess_registered_le hr a).trans (build_excess_le a mappings _)

/-- Where an account pays for an id again, more is reserved in the end than registered. -/
theorem build_excess_pos : ∀ (mappings : List (NimbusId × AccountId)) {s : State C}
    {seen : List NimbusId}, Registers s seen →
    (∀ id info, s.mappingWithDeposit.lookup id = some info → info.deposit.val ≠ 0) →
    s.depositAmount.val ≠ 0 → PaysAgain C.depositCurrency s.depositAmount seen mappings s.ledger →
    ∃ a, excess s a < excess (build mappings s) a
  | [], s, seen, _, _, _, hpays => hpays.elim
  | (id, b) :: mappings, s, seen, hs, hdeposits, hpos, hpays => by
    unfold PaysAgain at hpays
    rcases hr : C.depositCurrency.reserve s.ledger b s.depositAmount with _ | ledger
    · rw [hr] at hpays
      rw [build_poor hr]
      exact build_excess_pos mappings hs hdeposits hpos hpays
    · rw [hr] at hpays
      rw [build_paid hr]
      by_cases hid : id ∈ seen
      · obtain ⟨info, hinfo⟩ := hs.info hid
        refine ⟨info.account, lt_of_lt_of_le ?_ (build_excess_le _ mappings _)⟩
        have hdeposit := hdeposits id info hinfo
        rw [excess_again hinfo hr, if_pos rfl]
        omega
      · have hdeposits' (id' : NimbusId) (info : RegistrationInfo C)
            (hinfo : (s.registered id b (C.keysFrom id) ledger).mappingWithDeposit.lookup id' =
              some info) : info.deposit.val ≠ 0 := by
          change (s.mappingWithDeposit.insert id _).lookup id' = some info at hinfo
          rw [ReverseIndex.lookup_index_insert] at hinfo
          split_ifs at hinfo
          · rw [← Option.some.inj hinfo]
            exact hpos
          · exact hdeposits id' info hinfo
        obtain ⟨a, ha⟩ := build_excess_pos mappings
          (registers_registered b (C.keysFrom id) ledger hs) hdeposits' hpos
          (hpays.resolve_left hid)
        exact ⟨a, lt_of_le_of_lt (excess_registered_le hr a) ha⟩

/-- The extrinsic reserves what it registers. -/
theorem addAll_excess (a : AccountId) : ∀ (mappings : List (NimbusId × AccountId)) (s : State C),
    excess (addAll mappings s) a = excess s a
  | [], s => rfl
  | (id, b) :: mappings, s => by
    rw [addAll, addAll_excess a mappings]
    rcases hinfo : s.mappingWithDeposit.lookup id with _ | info
    · rcases hr : C.depositCurrency.reserve s.ledger b s.depositAmount with _ | ledger
      · rw [addAssociation_refused fun _ => hr]
      · obtain ⟨events, hadd⟩ := addAssociation_ok hinfo hr
        rw [hadd]
        exact excess_fresh hinfo hr a
    · rw [addAssociation_registered hinfo]

end Excess

section Free

-- to reserve nothing moves nothing and never fails
variable (hzero : ∀ (l : Ledger) (a : AccountId), C.depositCurrency.reserve l a 0 = some l)

include hzero

omit [DecidableEq AccountId] in
theorem reserve_free (hfree : s.depositAmount = 0) (a : AccountId) :
    C.depositCurrency.reserve s.ledger a s.depositAmount = some s.ledger := by
  rw [hfree, hzero]

theorem build_free : ∀ (mappings : List (NimbusId × AccountId)) (s : State C),
    s.depositAmount = 0 → build mappings s = { s with
      mappingWithDeposit := insertAll Prod.fst freeInfo mappings s.mappingWithDeposit
      nimbusLookup := insertAll Prod.snd Prod.fst mappings s.nimbusLookup }
  | [], s, _ => rfl
  | (id, a) :: mappings, s, hfree => by
    rw [build_paid (reserve_free hzero hfree a)]
    refine (build_free mappings (s.registered id a (C.keysFrom id) s.ledger) hfree).trans ?_
    have hinfo : freeInfo (id, a) = ⟨a, s.depositAmount, C.keysFrom id⟩ :=
      congrArg (RegistrationInfo.mk a · (C.keysFrom id)) hfree.symm
    rw [insertAll, insertAll, hinfo]
    rfl

/-- The extrinsics register the entries that are the first of their nimbus id. -/
theorem addAll_free : ∀ (mappings : List (NimbusId × AccountId)) {s : State C}
    {seen : List NimbusId} (events : List (Event AccountId Keys)), Registers s seen →
    s.depositAmount = 0 → ∃ events', addAll mappings (s.withEvents events) =
      (build (firstsBy Prod.fst seen mappings) s).withEvents events'
  | [], s, seen, events, _, _ => ⟨events, rfl⟩
  | (id, a) :: mappings, s, seen, events, hs, hfree => by
    unfold addAll firstsBy
    by_cases hid : id ∈ seen
    · obtain ⟨info, hinfo⟩ := hs.info hid
      have hinfo' : (s.withEvents events).mappingWithDeposit.lookup id = some info := hinfo
      rw [if_pos hid, addAssociation_registered hinfo']
      exact addAll_free mappings events hs hfree
    · have hr := reserve_free hzero (s := s) hfree a
      obtain ⟨events', hadd⟩ := addAssociation_ok (s := s.withEvents events) ((hs id).2 hid) hr
      rw [if_neg hid, hadd, build_paid hr]
      exact addAll_free mappings events' (registers_registered _ _ _ hs) hfree

end Free

section Replay

variable (mappings : List (NimbusId × AccountId)) {ledger : Ledger} {depositAmount : Balance C}

omit [DecidableEq AccountId] in
theorem registers_empty : Registers (.empty ledger depositAmount : State C) [] := by
  intro id
  simp [State.empty]

theorem same_of_not_paysAgain
    (hpays : ¬ PaysAgain C.depositCurrency depositAmount [] mappings ledger) :
    SameRegistrations (build mappings (.empty ledger depositAmount : State C))
      (addAll mappings (.empty ledger depositAmount)) := by
  obtain ⟨events, hadd⟩ := addAll_of_not_paysAgain mappings [] registers_empty hpays
  have hadd' : addAll mappings (.empty ledger depositAmount) =
      (build mappings (.empty ledger depositAmount)).withEvents events := hadd
  rw [hadd']
  exact ⟨rfl, rfl, fun _ => rfl⟩

theorem excess_of_same (h : SameRegistrations s s') (a : AccountId) : excess s a = excess s' a := by
  have hdeposited : deposited s a = deposited s' a := by
    unfold deposited
    rw [h.mappingWithDeposit]
  unfold excess
  rw [h.reserved a, hdeposited]

theorem not_same_of_paysAgain (hpos : depositAmount ≠ 0)
    (hpays : PaysAgain C.depositCurrency depositAmount [] mappings ledger) :
    ¬ SameRegistrations (build mappings (.empty ledger depositAmount : State C))
      (addAll mappings (.empty ledger depositAmount)) := by
  intro hsame
  have hdeposits (id : NimbusId) (info : RegistrationInfo C)
      (hinfo : (State.empty ledger depositAmount : State C).mappingWithDeposit.lookup id =
        some info) : info.deposit.val ≠ 0 := by
    simp [State.empty] at hinfo
  have hval : depositAmount.val ≠ 0 := fun hval => hpos (Uint.ext_val hval)
  obtain ⟨a, ha⟩ := build_excess_pos mappings registers_empty hdeposits hval hpays
  rw [excess_of_same hsame a, addAll_excess] at ha
  exact lt_irrefl _ ha

theorem same_free_iff
    (hzero : ∀ (l : Ledger) (a : AccountId), C.depositCurrency.reserve l a 0 = some l) :
    SameRegistrations (build mappings (.empty ledger 0 : State C))
      (addAll mappings (.empty ledger 0)) ↔ SameLast mappings := by
  obtain ⟨events, hadd⟩ := addAll_free hzero mappings (s := .empty ledger 0) []
    registers_empty rfl
  have hadd' : addAll mappings (.empty ledger 0 : State C) =
      (build (firstsBy Prod.fst [] mappings) (.empty ledger 0)).withEvents events := hadd
  have hmapping : insertAll Prod.fst (freeInfo (C := C)) mappings ∅ =
      insertAll Prod.fst freeInfo (firstsBy Prod.fst [] mappings) ∅ ↔
        ∀ id, lastBy Prod.fst id mappings = lastBy Prod.fst id (firstsBy Prod.fst [] mappings) :=
    insertAll_eq_iff fun e e' hid hinfo => Prod.ext hid (congrArg RegistrationInfo.account hinfo)
  have hlookup : insertAll Prod.snd Prod.fst mappings ∅ =
      insertAll Prod.snd Prod.fst (firstsBy Prod.fst [] mappings) ∅ ↔
        ∀ a, lastBy Prod.snd a mappings = lastBy Prod.snd a (firstsBy Prod.fst [] mappings) :=
    insertAll_eq_iff fun e e' ha hid => Prod.ext hid ha
  rw [hadd', build_free hzero mappings _ rfl,
    build_free hzero (firstsBy Prod.fst [] mappings) _ rfl]
  unfold SameLast
  rw [← hmapping, ← hlookup]
  exact ⟨fun h => ⟨h.mappingWithDeposit, h.nimbusLookup⟩, fun h => ⟨h.1, h.2, fun _ => rfl⟩⟩

/-- The two agree exactly on the lists that do not register an id again. -/
theorem genesis_replays_iff
    (hzero : ∀ (l : Ledger) (a : AccountId), C.depositCurrency.reserve l a 0 = some l)
    (mappings : List (NimbusId × AccountId)) (ledger : Ledger) (depositAmount : Balance C) :
    SameRegistrations (build mappings (.empty ledger depositAmount : State C))
      (addAll mappings (.empty ledger depositAmount)) ↔
        if depositAmount = 0 then SameLast mappings
        else ¬ PaysAgain C.depositCurrency depositAmount [] mappings ledger := by
  split_ifs with hfree
  · subst hfree
    exact same_free_iff mappings hzero
  · exact ⟨fun hsame hpays => not_same_of_paysAgain mappings hfree hpays hsame,
      same_of_not_paysAgain mappings⟩

namespace Mock

theorem reserve_zero (l : Mock.Ledger) (a : ℕ) : test.depositCurrency.reserve l a 0 = some l :=
  rfl

/-- Account 2 has nothing. -/
def poor : Mock.Ledger := Function.update balances 2 ⟨0, 0, by decide⟩

/-- A nimbus id of two accounts. -/
def twice : List (NimbusId × ℕ) := [(alice, 1), (alice, 2)]

end Mock

/-- The nimbus id of account 1 comes again for an account that cannot pay. -/
theorem genesis_replays_poor : SameRegistrations
    (build [(Mock.alice, 1), (Mock.alice, 2), (Mock.bob, 1)]
      (.empty Mock.poor (.lit 100) : State Mock.test))
    (addAll [(Mock.alice, 1), (Mock.alice, 2), (Mock.bob, 1)] (.empty Mock.poor (.lit 100))) :=
  (genesis_replays_iff Mock.reserve_zero _ Mock.poor (.lit 100)).2
    ((if_neg (by decide)).mpr (by decide +kernel))

/-- An account that can pay takes the registration over, and the deposit of the first account stays
reserved. -/
theorem genesis_takes_over :
    accountIdOf (Mock.genesis Mock.twice) Mock.alice = some 2 ∧
    (Mock.test.depositCurrency.reservedBalance (Mock.genesis Mock.twice).ledger 1).val = 100 ∧
    accountIdOf (addAll Mock.twice (.empty Mock.balances (.lit 100) : State Mock.test)) Mock.alice =
      some 1 ∧
    ¬ SameRegistrations (Mock.genesis Mock.twice)
      (addAll Mock.twice (.empty Mock.balances (.lit 100))) := by
  have hbuild : accountIdOf (Mock.genesis Mock.twice) Mock.alice = some 2 := by decide +kernel
  have hadd : accountIdOf (addAll Mock.twice (.empty Mock.balances (.lit 100) : State Mock.test))
      Mock.alice = some 1 := by
    decide +kernel
  refine ⟨hbuild, by decide +kernel, hadd, fun hsame => ?_⟩
  have haccount := congrArg (fun m => (m.lookup Mock.alice).map RegistrationInfo.account)
    hsame.mappingWithDeposit
  have htwo : some 2 = some 1 := hbuild.symm.trans (haccount.trans hadd)
  simp at htwo

end Replay

end AuthorMapping

end Moonkit
