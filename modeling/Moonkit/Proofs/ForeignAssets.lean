import Moonkit.Base.Inverse
import Moonkit.ForeignAssetCreator

/-!
# The two maps of foreign assets

Creating, changing and removing write the foreign asset of an asset id and the asset id of a foreign
asset one after the other, and look at the asset id only. So the maps stay inverse to each other
exactly as long as no call, and no asset of the genesis, takes a foreign asset that has an asset id
already. A change removes the link of the previous foreign asset last, so it relinks the asset id
unless the foreign asset it is given is the one it has (`change_relinks_iff`).
-/

namespace Moonkit

namespace ForeignAssetCreator

variable {Origin ForeignAsset AssetId AccountId Balance X E : Type}
  {C : Config Origin ForeignAsset AssetId AccountId Balance X E}
  {s s' : State ForeignAsset AssetId X}

theorem onFungibles_ok {x : Call X E Unit} {rest : X} (h : x s.rest = (.ok (), rest)) :
    (onFungibles x : PalletCall ForeignAsset AssetId X E Unit) s =
      (.ok (), { s with rest := rest }) := by
  unfold onFungibles
  exact Call.handle_ok (Call.on_apply h)

theorem onFungibles_eq_ok {x : Call X E Unit} {u : Unit}
    (h : (onFungibles x : PalletCall ForeignAsset AssetId X E Unit) s = (.ok u, s')) :
    ∃ rest, x s.rest = (.ok (), rest) ∧ { s with rest := rest } = s' :=
  Call.on_eq_ok.1 ((Call.handle_eq_ok (by simp [Call.err])).1 h)

variable [DecidableEq ForeignAsset] [DecidableEq AssetId]

section Calls

/-- The two maps. -/
def State.maps (s : State ForeignAsset AssetId X) :
    StorageMap AssetId ForeignAsset × StorageMap ForeignAsset AssetId :=
  (s.assetIdToForeignAsset, s.foreignAssetToAssetId)

/-- The call is made by its origin for an asset id it is meant for, and the fungibles accept it. -/
def Op.Accepted (C : Config Origin ForeignAsset AssetId AccountId Balance X E)
    (s : State ForeignAsset AssetId X) :
    Op Origin ForeignAsset AssetId AccountId Balance X → Prop
  | .createForeignAsset origin _ assetId admin isSufficient minBalance =>
    C.foreignAssetCreatorOrigin origin = true ∧ s.assetIdToForeignAsset.lookup assetId = none ∧
      (C.fungiblesCreate assetId admin isSufficient minBalance s.rest).1 = .ok ()
  | .changeExistingAssetType origin assetId _ =>
    C.foreignAssetModifierOrigin origin = true ∧
      (s.assetIdToForeignAsset.lookup assetId).isSome
  | .removeExistingAssetType origin assetId =>
    C.foreignAssetDestroyerOrigin origin = true ∧
      (s.assetIdToForeignAsset.lookup assetId).isSome
  | .destroyForeignAsset origin assetId =>
    C.foreignAssetDestroyerOrigin origin = true ∧
      (s.assetIdToForeignAsset.lookup assetId).isSome ∧
      (C.fungiblesStartDestroy assetId none s.rest).1 = .ok ()
  | .elsewhere _ => True

/-- The maps after an accepted call. -/
def Op.moves (s : State ForeignAsset AssetId X) :
    Op Origin ForeignAsset AssetId AccountId Balance X →
      StorageMap AssetId ForeignAsset × StorageMap ForeignAsset AssetId
  | .createForeignAsset _ foreignAsset assetId _ _ _ =>
    (s.assetIdToForeignAsset.insert assetId foreignAsset,
      s.foreignAssetToAssetId.insert foreignAsset assetId)
  | .changeExistingAssetType _ assetId newForeignAsset =>
    (s.assetIdToForeignAsset.lookup assetId).elim s.maps fun previous =>
      (s.assetIdToForeignAsset.insert assetId newForeignAsset,
        (s.foreignAssetToAssetId.insert newForeignAsset assetId).erase previous)
  | .removeExistingAssetType _ assetId | .destroyForeignAsset _ assetId =>
    (s.assetIdToForeignAsset.lookup assetId).elim s.maps fun foreignAsset =>
      (s.assetIdToForeignAsset.erase assetId, s.foreignAssetToAssetId.erase foreignAsset)
  | .elsewhere _ => s.maps

theorem run_of_accepted {op : Op Origin ForeignAsset AssetId AccountId Balance X}
    (h : op.Accepted C s) : ∃ s', op.run C s = (.ok (), s') ∧ s'.maps = op.moves s := by
  cases op with
  | createForeignAsset origin foreignAsset assetId admin isSufficient minBalance =>
    obtain ⟨horigin, hfree, hcreate⟩ := h
    have hfungibles : C.fungiblesCreate assetId admin isSufficient minBalance s.rest =
        (.ok (), _) := Prod.ext hcreate rfl
    simp only [Op.run, createForeignAsset, Call.ensure_bind, if_pos horigin, Call.get_bind, hfree,
      Option.isNone_none, if_true, Call.bind_ok (onFungibles_ok hfungibles)]
    exact ⟨_, rfl, rfl⟩
  | changeExistingAssetType origin assetId newForeignAsset =>
    obtain ⟨horigin, hsome⟩ := h
    obtain ⟨previous, hprevious⟩ := Option.isSome_iff_exists.1 hsome
    simp only [Op.run, changeExistingAssetType, Call.ensure_bind, if_pos horigin, Call.get_bind,
      hprevious, Call.okOr_some, Call.pure_bind_apply, Op.moves, Option.elim_some]
    exact ⟨_, rfl, rfl⟩
  | removeExistingAssetType origin assetId =>
    obtain ⟨horigin, hsome⟩ := h
    obtain ⟨foreignAsset, hforeign⟩ := Option.isSome_iff_exists.1 hsome
    simp only [Op.run, removeExistingAssetType, Call.ensure_bind, if_pos horigin, Call.get_bind,
      hforeign, Call.okOr_some, Call.pure_bind_apply, Op.moves, Option.elim_some]
    exact ⟨_, rfl, rfl⟩
  | destroyForeignAsset origin assetId =>
    obtain ⟨horigin, hsome, hdestroy⟩ := h
    obtain ⟨foreignAsset, hforeign⟩ := Option.isSome_iff_exists.1 hsome
    have hfungibles : C.fungiblesStartDestroy assetId none s.rest = (.ok (), _) :=
      Prod.ext hdestroy rfl
    simp only [Op.run, destroyForeignAsset, Call.ensure_bind, if_pos horigin, Call.get_bind,
      hforeign, Call.okOr_some, Call.pure_bind_apply, Call.bind_ok (onFungibles_ok hfungibles),
      Op.moves, Option.elim_some]
    exact ⟨_, rfl, rfl⟩
  | elsewhere rest => exact ⟨_, rfl, rfl⟩

theorem accepted_of_run {op : Op Origin ForeignAsset AssetId AccountId Balance X} {u : Unit}
    (h : op.run C s = (.ok u, s')) : op.Accepted C s := by
  cases op with
  | createForeignAsset origin foreignAsset assetId admin isSufficient minBalance =>
    obtain ⟨horigin, h⟩ := Call.ensure_bind_eq_ok.1 h
    rw [Call.get_bind] at h
    obtain ⟨hfree, h⟩ := Call.ensure_bind_eq_ok.1 h
    obtain ⟨_, _, hfungibles, -⟩ := Call.bind_eq_ok.1 h
    obtain ⟨rest, hcreate, -⟩ := onFungibles_eq_ok hfungibles
    exact ⟨horigin, Option.isNone_iff_eq_none.1 hfree, congrArg Prod.fst hcreate⟩
  | changeExistingAssetType origin assetId newForeignAsset =>
    obtain ⟨horigin, h⟩ := Call.ensure_bind_eq_ok.1 h
    rw [Call.get_bind] at h
    obtain ⟨_, _, hsome, -⟩ := Call.bind_eq_ok.1 h
    exact ⟨horigin, Option.isSome_of_mem (Call.okOr_eq_ok.1 hsome).1⟩
  | removeExistingAssetType origin assetId =>
    obtain ⟨horigin, h⟩ := Call.ensure_bind_eq_ok.1 h
    rw [Call.get_bind] at h
    obtain ⟨_, _, hsome, -⟩ := Call.bind_eq_ok.1 h
    exact ⟨horigin, Option.isSome_of_mem (Call.okOr_eq_ok.1 hsome).1⟩
  | destroyForeignAsset origin assetId =>
    obtain ⟨horigin, h⟩ := Call.ensure_bind_eq_ok.1 h
    rw [Call.get_bind] at h
    obtain ⟨_, hsome, h⟩ := Call.okOr_bind_eq_ok.1 h
    obtain ⟨_, _, hfungibles, -⟩ := Call.bind_eq_ok.1 h
    obtain ⟨rest, hdestroy, -⟩ := onFungibles_eq_ok hfungibles
    exact ⟨horigin, Option.isSome_of_mem hsome, congrArg Prod.fst hdestroy⟩
  | elsewhere rest => trivial

variable {assets : List (GenesisAsset ForeignAsset AssetId AccountId Balance)}

/-- A call is accepted and moves the maps, or leaves the state as it is. -/
theorem exec_cases (s : State ForeignAsset AssetId X)
    (op : Op Origin ForeignAsset AssetId AccountId Balance X) :
    op.Accepted C s ∧ (((machine C assets).exec s op).2).maps = op.moves s ∨
      ¬ op.Accepted C s ∧ ((machine C assets).exec s op).2 = s := by
  by_cases haccepted : op.Accepted C s
  · obtain ⟨s', hrun, hmaps⟩ := run_of_accepted haccepted
    have hexec : (machine C assets).exec s op = (.ok (), s') := Call.transactional_ok hrun
    exact .inl ⟨haccepted, by rw [hexec, hmaps]⟩
  · rcases Call.transactional_cases (op.run C) s with ⟨u, s', hrun, -⟩ | ⟨-, hsame⟩
    · exact absurd (accepted_of_run hrun) haccepted
    · exact .inr ⟨haccepted, hsame⟩

end Calls

section Maps

/-- The two maps undo each other, and so do the conversions that read them. -/
def MapsInverse (s : State ForeignAsset AssetId X) : Prop :=
  ∀ a f, (s.assetIdToForeignAsset.lookup a = some f ↔ s.foreignAssetToAssetId.lookup f = some a) ∧
    (convert s f = some a ↔ convertBack s a = some f)

theorem mapsInverse_iff : MapsInverse s ↔ MutualInverse s.maps.1 s.maps.2 :=
  ⟨fun h a f => (h a f).1, fun h a f => ⟨h a f, (h a f).symm⟩⟩

/-- The foreign asset that a call gives to an asset id. -/
def Op.registers : Op Origin ForeignAsset AssetId AccountId Balance X → Option ForeignAsset
  | .createForeignAsset _ foreignAsset _ _ _ _ => some foreignAsset
  | .changeExistingAssetType _ _ newForeignAsset => some newForeignAsset
  | _ => none

/-- The call is accepted and gives an asset id a foreign asset that has one already. -/
def TakesRegistered (C : Config Origin ForeignAsset AssetId AccountId Balance X E)
    (s : State ForeignAsset AssetId X) (op : Op Origin ForeignAsset AssetId AccountId Balance X) :
    Prop :=
  op.Accepted C s ∧ ∃ f a, op.registers = some f ∧ s.foreignAssetToAssetId.lookup f = some a

variable {op : Op Origin ForeignAsset AssetId AccountId Balance X}

theorem moves_inverse (hs : MutualInverse s.maps.1 s.maps.2) (haccepted : op.Accepted C s)
    (hop : ¬ TakesRegistered C s op) : MutualInverse (op.moves s).1 (op.moves s).2 := by
  have hfree {f : ForeignAsset} (hf : op.registers = some f) :
      s.foreignAssetToAssetId.lookup f = none := by
    rcases hlookup : s.foreignAssetToAssetId.lookup f with _ | a
    · rfl
    · exact absurd ⟨haccepted, f, a, hf, hlookup⟩ hop
  cases op with
  | createForeignAsset origin f a admin isSufficient minBalance =>
    exact hs.insert haccepted.2.1 (hfree rfl)
  | changeExistingAssetType origin a f =>
    obtain ⟨previous, hprevious⟩ := Option.isSome_iff_exists.1 haccepted.2
    simp only [Op.moves, hprevious, Option.elim_some]
    exact hs.replace hprevious (hfree rfl)
  | removeExistingAssetType origin a =>
    obtain ⟨f, hf⟩ := Option.isSome_iff_exists.1 haccepted.2
    simp only [Op.moves, hf, Option.elim_some]
    exact hs.erase hf
  | destroyForeignAsset origin a =>
    obtain ⟨f, hf⟩ := Option.isSome_iff_exists.1 haccepted.2.1
    simp only [Op.moves, hf, Option.elim_some]
    exact hs.erase hf
  | elsewhere rest => exact hs

theorem moves_not_inverse (hs : MutualInverse s.maps.1 s.maps.2) (hop : TakesRegistered C s op) :
    ¬ MutualInverse (op.moves s).1 (op.moves s).2 := by
  obtain ⟨haccepted, f, a', hf, ha'⟩ := hop
  cases op with
  | createForeignAsset origin f' a admin isSufficient minBalance =>
    obtain rfl := Option.some.inj hf
    exact hs.not_insert haccepted.2.1 ha'
  | changeExistingAssetType origin a f' =>
    obtain rfl := Option.some.inj hf
    obtain ⟨previous, hprevious⟩ := Option.isSome_iff_exists.1 haccepted.2
    simp only [Op.moves, hprevious, Option.elim_some]
    exact hs.not_replace hprevious ha'
  | _ => cases hf

end Maps

section Genesis

variable {asset : GenesisAsset ForeignAsset AssetId AccountId Balance}
  {assets : List (GenesisAsset ForeignAsset AssetId AccountId Balance)}

theorem buildAsset_eq_ok {u : Unit} (h : buildAsset C asset s = (.ok u, s')) :
    s.assetIdToForeignAsset.lookup asset.assetId = none ∧
      s'.maps = (s.assetIdToForeignAsset.insert asset.assetId asset.foreignAsset,
        s.foreignAssetToAssetId.insert asset.foreignAsset asset.assetId) := by
  unfold buildAsset at h
  rw [Call.get_bind] at h
  obtain ⟨hfree, h⟩ := Call.assert_bind_eq_ok.1 h
  obtain ⟨_, s₁, hcreate, h⟩ := Call.bind_eq_ok.1 h
  obtain ⟨rest, -, rfl⟩ := onFungibles_eq_ok ((Call.handle_eq_ok (by simp)).1 hcreate)
  obtain ⟨-, rfl⟩ := Prod.mk.inj h
  exact ⟨Option.isNone_iff_eq_none.1 hfree, rfl⟩

/-- A genesis that builds has pairwise distinct asset ids, which keep their foreign assets. -/
theorem build_forward : ∀ {assets : List (GenesisAsset ForeignAsset AssetId AccountId Balance)}
    {s : State ForeignAsset AssetId X}, build C assets s = (.ok (), s') →
    (assets.map GenesisAsset.assetId).Nodup ∧
    (∀ asset ∈ assets, s.assetIdToForeignAsset.lookup asset.assetId = none ∧
      s'.assetIdToForeignAsset.lookup asset.assetId = some asset.foreignAsset) ∧
    ∀ a f, s.assetIdToForeignAsset.lookup a = some f →
      s'.assetIdToForeignAsset.lookup a = some f
  | [], s, h => by
    obtain ⟨-, rfl⟩ := Prod.mk.inj h
    simp
  | asset :: assets, s, h => by
    obtain ⟨_, s₁, hfirst, hrest⟩ := Call.bind_eq_ok.1 h
    obtain ⟨hfree, hmaps⟩ := buildAsset_eq_ok hfirst
    obtain ⟨hnodup, hassets, hkeeps⟩ := build_forward hrest
    have hforward : s₁.assetIdToForeignAsset =
        s.assetIdToForeignAsset.insert asset.assetId asset.foreignAsset := congrArg Prod.fst hmaps
    rw [hforward] at hassets hkeeps
    have hne (asset' : GenesisAsset ForeignAsset AssetId AccountId Balance)
        (hmem : asset' ∈ assets) : asset'.assetId ≠ asset.assetId := by
      intro heq
      have := (hassets asset' hmem).1
      rw [heq, Finmap.lookup_insert] at this
      cases this
    refine ⟨?_, ?_, fun a f hf => ?_⟩
    · rw [List.map_cons, List.nodup_cons, List.mem_map]
      exact ⟨fun ⟨asset', hmem, heq⟩ => hne asset' hmem heq, hnodup⟩
    · intro asset' hmem
      rcases List.mem_cons.1 hmem with rfl | hmem
      · exact ⟨hfree, hkeeps _ _ (Finmap.lookup_insert _)⟩
      · obtain ⟨hnone, hsome⟩ := hassets asset' hmem
        rw [Finmap.lookup_insert_of_ne _ (hne asset' hmem)] at hnone
        exact ⟨hnone, hsome⟩
    · refine hkeeps a f ?_
      have hne' : a ≠ asset.assetId := by
        rintro rfl
        rw [hfree] at hf
        cases hf
      rw [Finmap.lookup_insert_of_ne _ hne', hf]

theorem build_inverse : ∀ {assets : List (GenesisAsset ForeignAsset AssetId AccountId Balance)}
    {s : State ForeignAsset AssetId X}, build C assets s = (.ok (), s') →
    MutualInverse s.maps.1 s.maps.2 → (assets.map GenesisAsset.foreignAsset).Nodup →
    (∀ f ∈ assets.map GenesisAsset.foreignAsset, s.foreignAssetToAssetId.lookup f = none) →
    MutualInverse s'.maps.1 s'.maps.2
  | [], s, h, hs, _, _ => by
    obtain ⟨-, rfl⟩ := Prod.mk.inj h
    exact hs
  | asset :: assets, s, h, hs, hnodup, hfresh => by
    obtain ⟨_, s₁, hfirst, hrest⟩ := Call.bind_eq_ok.1 h
    obtain ⟨hfree, hmaps⟩ := buildAsset_eq_ok hfirst
    rw [List.map_cons, List.nodup_cons] at hnodup
    refine build_inverse hrest ?_ hnodup.2 fun f hf => ?_
    · rw [hmaps]
      exact hs.insert hfree (hfresh _ List.mem_cons_self)
    · have hreverse : s₁.foreignAssetToAssetId =
          s.foreignAssetToAssetId.insert asset.foreignAsset asset.assetId :=
        congrArg Prod.snd hmaps
      have hne : f ≠ asset.foreignAsset := fun heq => hnodup.1 (heq ▸ hf)
      rw [hreverse, Finmap.lookup_insert_of_ne _ hne]
      exact hfresh f (List.mem_cons_of_mem _ hf)

theorem build_inverse_iff {rest : X} (h : build C assets ⟨∅, ∅, [], rest⟩ = (.ok (), s)) :
    MutualInverse s.maps.1 s.maps.2 ↔ (assets.map GenesisAsset.foreignAsset).Nodup := by
  constructor
  · intro hs
    obtain ⟨hnodup, hassets, -⟩ := build_forward h
    refine List.Nodup.map_on (fun x hx y hy heq => ?_) (List.Nodup.of_map _ hnodup)
    have hxid := (hs x.assetId x.foreignAsset).1 (hassets x hx).2
    have hyid := (hs y.assetId y.foreignAsset).1 (hassets y hy).2
    rw [heq, hyid] at hxid
    exact List.inj_on_of_nodup_map hnodup hx hy (Option.some.inj hxid).symm
  · intro hnodup
    exact build_inverse h .empty hnodup (by simp)

end Genesis

/-- **Foreign asset maps.** Along a run from a genesis that builds, the two maps and the conversions
are inverse to each other in every state if and only if the foreign assets of the genesis are
pairwise distinct and no accepted call gives an asset id a foreign asset that has an asset id at
that moment. -/
theorem maps_inverse_iff {assets : List (GenesisAsset ForeignAsset AssetId AccountId Balance)}
    {h : List (RunEvent Origin ForeignAsset AssetId AccountId Balance X E)}
    (hr : (machine C assets).Run (fun _ _ _ => True) h s) :
    (∀ t ∈ s :: h.map Machine.Event.before, MapsInverse t) ↔
      (assets.map GenesisAsset.foreignAsset).Nodup ∧
        ∀ e ∈ h, ¬ TakesRegistered C e.before e.op := by
  simp only [mapsInverse_iff]
  refine hr.forall_iff_of_genesis ?_ ?_ ?_
  · rintro s ⟨rest, hbuild⟩
    exact build_inverse_iff hbuild
  · intro s op hs hop
    rcases exec_cases s op with ⟨haccepted, hmaps⟩ | ⟨-, hsame⟩
    · rw [hmaps]
      exact moves_inverse hs haccepted hop
    · rw [hsame]
      exact hs
  · intro s op hs hop
    rcases exec_cases s op with ⟨-, hmaps⟩ | ⟨hnot, -⟩
    · rw [hmaps]
      exact moves_not_inverse hs hop
    · exact absurd hop.1 hnot

section Relink

variable {a : AssetId} {f previous : ForeignAsset}

/-- From `s` to `s'` the asset id `a` goes from the foreign asset `previous` to `f`, and everything
else resolves as before. -/
structure Relinked (s s' : State ForeignAsset AssetId X) (a : AssetId)
    (previous f : ForeignAsset) : Prop where
  convert_new : convert s' f = some a
  convertBack_asset : convertBack s' a = some f
  convert_previous : previous ≠ f → convert s' previous = none
  convertBack_other : ∀ b, b ≠ a → convertBack s' b = convertBack s b
  convert_other : ∀ g, g ≠ f → g ≠ previous → convert s' g = convert s g
  inverse : MapsInverse s'

theorem change_maps {origin : Origin} (hprevious : convertBack s a = some previous)
    (hok : changeExistingAssetType C origin a f s = (.ok (), s')) :
    s'.maps = (s.assetIdToForeignAsset.insert a f,
      (s.foreignAssetToAssetId.insert f a).erase previous) := by
  have haccepted : (Op.changeExistingAssetType origin a f :
      Op Origin ForeignAsset AssetId AccountId Balance X).Accepted C s := accepted_of_run hok
  obtain ⟨s₁, hrun, hmaps⟩ := run_of_accepted haccepted
  obtain rfl : s₁ = s' := congrArg Prod.snd (hrun.symm.trans hok)
  have hlookup : s.assetIdToForeignAsset.lookup a = some previous := hprevious
  rw [hmaps, Op.moves, hlookup, Option.elim_some]

/-- **Relinking an asset.** Where the maps are inverse, a change of a registered asset id to a
foreign asset that no other asset id has relinks that asset id and nothing else if and only if the
foreign asset is not the one it has: the removal of the previous foreign asset comes after the
insertion of the new one. -/
theorem change_relinks_iff {origin : Origin} (hs : MapsInverse s)
    (hprevious : convertBack s a = some previous) (hfree : ∀ b, convert s f = some b → b = a)
    (hok : changeExistingAssetType C origin a f s = (.ok (), s')) :
    Relinked s s' a previous f ↔ f ≠ previous := by
  have hmaps := change_maps hprevious hok
  have hforward : s'.assetIdToForeignAsset = s.assetIdToForeignAsset.insert a f :=
    congrArg Prod.fst hmaps
  have hreverse : s'.foreignAssetToAssetId =
      (s.foreignAssetToAssetId.insert f a).erase previous := congrArg Prod.snd hmaps
  constructor
  · rintro hrelinked rfl
    have hnew := hrelinked.convert_new
    rw [convert, hreverse, Finmap.lookup_erase] at hnew
    cases hnew
  · intro hne
    -- a foreign asset of `a` would be the previous one
    have hnew : s.foreignAssetToAssetId.lookup f = none := by
      rcases hlookup : s.foreignAssetToAssetId.lookup f with _ | b
      · rfl
      · obtain rfl := hfree b hlookup
        have hback : convertBack s b = some f := (hs b f).2.1 hlookup
        rw [hprevious] at hback
        exact absurd (Option.some.inj hback).symm hne
    refine ⟨?_, ?_, fun _ => ?_, fun b hb => ?_, fun g hg hgp => ?_, ?_⟩
    · rw [convert, hreverse, Finmap.lookup_erase_ne hne, Finmap.lookup_insert]
    · rw [convertBack, hforward, Finmap.lookup_insert]
    · rw [convert, hreverse, Finmap.lookup_erase]
    · rw [convertBack, hforward, Finmap.lookup_insert_of_ne _ hb, convertBack]
    · rw [convert, hreverse, Finmap.lookup_erase_ne hgp, Finmap.lookup_insert_of_ne _ hg, convert]
    · rw [mapsInverse_iff, hmaps]
      exact (mapsInverse_iff.1 hs).replace hprevious hnew

end Relink

/-- A runtime whose root may do everything, and whose fungibles are a list of asset ids. -/
def testConfig : Config (RawOrigin ℕ) ℕ ℕ ℕ ℕ (List ℕ) String where
  foreignAssetCreatorOrigin origin := origin = .root
  foreignAssetModifierOrigin origin := origin = .root
  foreignAssetDestroyerOrigin origin := origin = .root
  fungiblesCreate assetId _ _ _ := fun ids =>
    if assetId ∈ ids then (.err "InUse", ids) else (.ok (), assetId :: ids)
  fungiblesStartDestroy assetId _ := fun ids =>
    if assetId ∈ ids then (.ok (), ids) else (.err "Unknown", ids)
  onForeignAssetCreated _ _ _ := id
  onForeignAssetDestroyed _ _ := id
  debug := Nat.repr

/-- The history and the state after these calls, from a genesis without assets. -/
def testCalls (ops : List (Op (RawOrigin ℕ) ℕ ℕ ℕ ℕ (List ℕ))) :
    List (RunEvent (RawOrigin ℕ) ℕ ℕ ℕ ℕ (List ℕ) String) × State ℕ ℕ (List ℕ) :=
  (machine testConfig []).replay [] ⟨∅, ∅, [], []⟩ ops

theorem run_testCalls (ops : List (Op (RawOrigin ℕ) ℕ ℕ ℕ ℕ (List ℕ))) :
    (machine testConfig []).Run (fun _ _ _ => True) (testCalls ops).1 (testCalls ops).2 :=
  Machine.run_replay_all ops (.start ⟨[], rfl⟩)

/-- The asset 1 is created for the foreign asset 10 and changed to the foreign asset 20. -/
def changed : List (RunEvent (RawOrigin ℕ) ℕ ℕ ℕ ℕ (List ℕ) String) × State ℕ ℕ (List ℕ) :=
  testCalls [.createForeignAsset .root 10 1 0 true 1, .changeExistingAssetType .root 1 20]

theorem maps_inverse_test : convert changed.2 20 = some 1 ∧ MapsInverse changed.2 := by
  have hgood : ∀ e ∈ changed.1, ¬ TakesRegistered testConfig e.before e.op := by
    simp only [changed, testCalls, Machine.replay, Machine.event, List.forall_mem_cons,
      List.not_mem_nil, false_imp_iff, implies_true, and_true]
    constructor
    · rintro ⟨-, f, a, hf, ha⟩
      obtain rfl := Option.some.inj hf
      cases ha
    · rintro ⟨-, f, a, hf, ha⟩
      cases ha
  have hall := (maps_inverse_iff (run_testCalls _)).2 ⟨by decide, hgood⟩
  exact ⟨by decide +kernel, hall _ List.mem_cons_self⟩

/-- The asset 1 is created for the foreign asset 10. -/
def created : List (RunEvent (RawOrigin ℕ) ℕ ℕ ℕ ℕ (List ℕ) String) × State ℕ ℕ (List ℕ) :=
  testCalls [.createForeignAsset .root 10 1 0 true 1]

theorem created_inverse : MapsInverse created.2 := by
  rw [mapsInverse_iff]
  exact MutualInverse.empty.insert (by simp) (by simp)

theorem created_free {f : ℕ} : ∀ b, convert created.2 f = some b → b = 1 := by
  intro b hb
  change (Finmap.insert 10 1 (∅ : StorageMap ℕ ℕ)).lookup f = some b at hb
  rw [ReverseIndex.lookup_index_insert] at hb
  split_ifs at hb with h
  · exact (Option.some.inj hb).symm
  · simp at hb

/-- The asset 1 of `created` is changed to this foreign asset. -/
def relink (f : ℕ) : State ℕ ℕ (List ℕ) :=
  (changeExistingAssetType testConfig (.root : RawOrigin ℕ) 1 f created.2).2

theorem relink_created : Relinked created.2 (relink 20) 1 10 20 := by
  have hok : changeExistingAssetType testConfig (.root : RawOrigin ℕ) 1 20 created.2 =
      (.ok (), relink 20) := rfl
  exact (change_relinks_iff created_inverse (by decide +kernel) created_free hok).2 (by decide)

theorem relink_same_lost :
    (machine testConfig []).Run (fun _ _ _ => True) created.1 created.2 ∧
      MapsInverse created.2 ∧ convert created.2 10 = some 1 ∧
      changeExistingAssetType testConfig (.root : RawOrigin ℕ) 1 10 created.2 =
        (.ok (), relink 10) ∧
      convert (relink 10) 10 = none ∧ ¬ Relinked created.2 (relink 10) 1 10 10 := by
  have hlost : convert (relink 10) 10 = none := by decide +kernel
  refine ⟨run_testCalls _, created_inverse, by decide +kernel, rfl, hlost, fun h => ?_⟩
  have hnew := h.convert_new
  rw [hlost] at hnew
  cases hnew

/-- The assets 1 and 2 are created for the same foreign asset. -/
def createdTwice : List (RunEvent (RawOrigin ℕ) ℕ ℕ ℕ ℕ (List ℕ) String) × State ℕ ℕ (List ℕ) :=
  testCalls [.createForeignAsset .root 10 1 0 true 1, .createForeignAsset .root 10 2 0 true 1]

theorem createdTwice_not_inverse :
    (machine testConfig []).Run (fun _ _ _ => True) createdTwice.1 createdTwice.2 ∧
      convertBack createdTwice.2 1 = some 10 ∧ convert createdTwice.2 10 = some 2 ∧
      ¬ MapsInverse createdTwice.2 := by
  have hback : convertBack createdTwice.2 1 = some 10 := by decide +kernel
  have hconvert : convert createdTwice.2 10 = some 2 := by decide +kernel
  refine ⟨run_testCalls _, hback, hconvert, fun h => ?_⟩
  have hone := (h 1 10).2.2 hback
  rw [hconvert] at hone
  exact absurd hone (by decide)

end ForeignAssetCreator

end Moonkit
