import PluginHost.Proofs.Host.Counters
import PluginHost.Proofs.World.Frame
import PluginHost.Proofs.World.Live

/-!
# Exact counters

The host counts, by adding and taking away one at a time, how many instances of a library live and how many
holders an instance has. What it counts is what is there: instances of the library that were made and not
destroyed, and handles of either form and shared capabilities that a program keeps.

* `World.genericHolders`, `World.specializedHolders`, `World.sharedHolders`: the holders of an instance.
* `World.uses_of_reachable`, `World.exists_living`: the two counters in every reachable world.
* `World.yields_after`: what an action gives back is held when it is given back.
* `World.tallied`: all of it.
-/

namespace PluginHost.World

set_option autoImplicit false

open PluginHost.Table

/-! ## Holders -/

def genericHolders (w : World) (x : Instance) : Nat :=
  w.handles.values.countP fun y => y.candidates.isNone && y.handle.held == some x

def specializedHolders (w : World) (x : Instance) : Nat :=
  w.handles.values.countP fun y => y.candidates.isSome && y.handle.held == some x

def sharedHolders (w : World) (x : Instance) : Nat :=
  w.shares.values.countP fun s => s.owner == x

theorem count_owned (handle : Handle) (x : Instance) :
    handle.owned.count x = if handle.held = some x then 1 else 0 := by
  cases hy : handle.held with
  | none => simp [Handle.owned, hy]
  | some y =>
    have howned : handle.owned = {y} := by rw [Handle.owned, hy]; rfl
    rw [howned, Multiset.count_singleton]
    by_cases hxy : x = y <;> simp [hxy, eq_comm]

/-- The holders of an instance are those of the three kinds. -/
theorem count_held (w : World) (x : Instance) :
    w.held.count x = w.genericHolders x + w.specializedHolders x + w.sharedHolders x := by
  have hhandles : ∀ ys : List Holder, ((ys : Multiset Holder).bind fun y => y.handle.owned).count x =
      (ys.countP fun y => y.candidates.isNone && y.handle.held == some x) +
        ys.countP fun y => y.candidates.isSome && y.handle.held == some x := by
    intro ys
    induction ys with
    | nil => rfl
    | cons y ys ih =>
      rw [← Multiset.cons_coe, Multiset.cons_bind, Multiset.count_add, ih, count_owned]
      simp only [List.countP_cons]
      by_cases hy : y.handle.held = some x
      · cases y.candidates <;> simp [hy] <;> omega
      · simp [hy]
  have hshares : ∀ ss : List Shared, ((ss : Multiset Shared).map Shared.owner).count x =
      ss.countP fun s => s.owner == x := by
    intro ss
    rw [Multiset.map_coe, Multiset.coe_count, List.count, List.countP_map]
    rfl
  rw [held, Multiset.count_add]
  exact congrArg₂ (· + ·) (hhandles w.handles.values) (hshares w.shares.values)

/-! ## The counters of a world -/

theorem uses_of_reachable {w : World} (hw : Reachable w) (x : Instance) :
    w.host.uses x = (w.held.map Instance.id).count x.id := by
  have hs := sound_of_reachable (fun _ => False) hw
  have hcounts := hs.host.balanced.instances.counted.counts x.id
  rw [zero_add] at hcounts
  rw [Host.uses_eq_counter, hcounts]

/-- A live instance has as many holders as the host counts, and so at least one. -/
theorem uses_of_lives {w : World} (hw : Reachable w) {x : Instance} (hx : w.Lives x) :
    w.host.uses x = w.held.count x ∧ 1 ≤ w.host.uses x := by
  have hs := sound_of_reachable (fun _ => False) hw
  have hheld : x ∈ w.held := hs.lives_iff.1 hx
  have huses : w.host.uses x = w.held.count x := by
    rw [uses_of_reachable hw, Multiset.count_map, Multiset.count_eq_card_filter_eq]
    refine congrArg Multiset.card (Multiset.filter_congr fun y hy => ⟨fun hid => ?_, fun h => by rw [h]⟩)
    refine hs.host.balanced.instances.eq_of_key_eq ?_ ?_ hid
    · rwa [zero_add]
    · rwa [zero_add]
  refine ⟨huses, ?_⟩
  rw [huses]
  exact Multiset.count_pos.2 hheld

/-- The host keeps a record of the library, and the instances of it that live are as many as it counts. -/
theorem exists_living {w : World} (hw : Reachable w) {l : Library} (hl : w.Refers l) :
    (∃ r, w.host.records.find? l.id = some r ∧ r.library = l) ∧
      ∃ living : Finset Instance, (∀ x, x ∈ living ↔ w.Lives x ∧ x.library = l) ∧
        w.host.live l = living.card := by
  have hs := sound_of_reachable (fun _ => False) hw
  have hid : ∀ x ∈ w.held.dedup, l.id = x.library.id ↔ x.library = l := by
    intro x hx
    refine ⟨fun hid => ?_, fun heq => by rw [heq]⟩
    have hmaker : w.Refers x.library := .instance (hs.lives_iff.2 (Multiset.mem_dedup.1 hx)) rfl
    exact hs.host.balanced.records.eq_of_key_eq (hs.refers_iff.1 hmaker) (hs.refers_iff.1 hl) hid.symm
  refine ⟨hs.host.balanced.records.kept l (hs.refers_iff.1 hl),
    (w.held.dedup.filter fun x => x.library = l).toFinset, fun x => ?_, ?_⟩
  · rw [Multiset.mem_toFinset, Multiset.mem_filter, Multiset.mem_dedup, hs.lives_iff]
  · rw [Multiset.toFinset_card_of_nodup ((Multiset.nodup_dedup _).filter _), hs.live_eq,
      Multiset.count_map]
    exact congrArg Multiset.card (Multiset.filter_congr hid)

/-! ## What an action does to the counters -/

section Counts

variable {births : Nat → Prop} {earlier h : Host} {w v : World} {spare : Multiset Instance}

theorem yields_keep (hs : Sound births earlier v spare) (hg : h.Gains v.host) (name : String) (x : Holder) :
    h.Yields (v.keep name x).host := by
  unfold keep
  cases hold : v.handles.find? name with
  | none => exact .raised hg
  | some old => exact hg.releaseHandle hs.host (owned_subset spare hold)

theorem yields_keepShared (hs : Sound births earlier v spare) (hg : h.Gains v.host) (name : String)
    (s : Shared) : h.Yields (v.keepShared name s).host := by
  unfold keepShared
  cases hold : v.shares.find? name with
  | none => exact .raised hg
  | some old =>
    have hmem : old.owner ∈ spare + v.held := Multiset.mem_add.2 (.inr (owner_mem_held hold))
    exact hg.releaseMember hs.host hmem

/-- An action that changes neither handles nor shared capabilities changes no counter. -/
theorem yields_of_tables (hw : Reachable w) {a : Action}
    (htables : (w.after a).handles = w.handles ∧ (w.after a).shares = w.shares) :
    w.host.Yields (w.after a).host := by
  have hheld : (w.after a).held = w.held := by rw [held, held, htables.1, htables.2]
  refine .kept (fun x => ?_) fun l => ?_
  · rw [uses_of_reachable (hw.step a), uses_of_reachable hw, hheld]
  · rw [live_of_reachable (hw.step a), live_of_reachable hw, hheld]

theorem tables_onHandle {α : Type} {source : String} {f : Holder → World → α × World}
    (hf : ∀ x, (f x w).2.handles = w.handles ∧ (f x w).2.shares = w.shares) :
    (w.onHandle source f).2.handles = w.handles ∧ (w.onHandle source f).2.shares = w.shares :=
  onHandle_induction (P := fun v => v.handles = w.handles ∧ v.shares = w.shares) ⟨rfl, rfl⟩
    fun x _ => hf x

/-- Whatever an action gives back is held when it is given back. -/
theorem yields_after (hw : Reachable w) (a : Action) : w.host.Yields (w.after a).host := by
  have hs := sound_of_reachable (fun _ => True) hw
  have hhandle : ∀ {α : Type} {source : String} {f : Holder → World → α × World},
      (∀ x, w.handles.find? source = some x → w.host.Yields (f x w).2.host) →
      w.host.Yields (w.onHandle source f).2.host :=
    fun hf => onHandle_induction (P := fun v => w.host.Yields v.host) (.raised .refl) hf
  cases a with
  -- up to the calls of shared capabilities no holder comes or goes; from then on one action adds holders
  -- before it gives one back
  | newLoader | dropLoader | load | tryLoad | loadConfigured | forget | forgetOf =>
    exact yields_of_tables hw (tables_after_of_loader rfl)
  | changeFiles => exact yields_of_tables hw ⟨rfl, rfl⟩
  | query | require | queryNamed | find | findTwice =>
    exact yields_of_tables hw (tables_onHandle fun _ => ⟨rfl, rfl⟩)
  | callShared source arg =>
    refine yields_of_tables hw ?_
    simp only [after, perform, Answer.ofOption, callShared]
    split <;> exact ⟨rfl, rfl⟩
  | instantiate loader plugin goal candidates =>
    simp only [after, perform, Answer.ofOption, instantiate]
    split
    · exact .raised .refl
    · next L hL =>
      have hgains : w.host.Gains (L.instantiate w.host plugin).2 := by
        unfold Loader.instantiate
        split
        · exact Host.Gains.refl.instantiate _ _
        · exact Host.Gains.refl.log _
      have hmade := hs.made hL plugin candidates fun _ _ => trivial
      exact yields_keep hmade (hgains.make _ candidates) goal _
  | newHandle goal candidates => exact yields_keep hs .refl goal _
  | cloneHandle source goal =>
    refine hhandle fun x hx => ?_
    have hretained := hs.retain (owned_subset_held hx)
    exact yields_keep hretained (Host.Gains.refl.retainHandle x.handle) goal x
  | takeHandle source goal =>
    exact hhandle fun x hx => yields_keep (hs.empty hx) .refl goal x
  | specialize source goal candidates =>
    refine hhandle fun x hx => ?_
    have hretained := hs.retain (owned_subset_held hx)
    have hbound := hretained.hosted
      (hretained.restart.host.bind (owned_subset (x.handle.owned + 0) hx) candidates)
    exact yields_keep hbound ((Host.Gains.refl.retainHandle x.handle).bind x.handle candidates) goal _
  | generalize source goal =>
    exact hhandle fun x hx => yields_keep (hs.lift hx) .refl goal _
  | resetHandle name =>
    exact hhandle fun x hx => Host.Gains.refl.releaseHandle hs.host (owned_subset 0 hx)
  | dropHandle name =>
    simp only [after, perform, Answer.of, dropHandle]
    split
    · exact .raised .refl
    · next x hx => exact Host.Gains.refl.releaseHandle hs.host (owned_subset 0 hx)
  | share source i goal =>
    refine hhandle fun x hx => ?_
    have hfound := hs.restart.host.queryHolder (owned_subset 0 hx) i
    have hgains : w.host.Gains (x.query w.host i).2 := Host.Gains.refl.queryHolder x i
    simp only
    split
    · next owner p hheld _ =>
      have howner : owner ∈ w.held := owned_subset_held hx (Handle.mem_owned.2 hheld)
      exact yields_keepShared (hs.retainOwner hfound howner) (hgains.retain owner) goal _
    · exact .raised hgains
  | cloneShared source goal =>
    simp only [after, perform, Answer.ofOption, cloneShared]
    split
    · exact .raised .refl
    · next s hshare =>
      have hretained := hs.retainOwner hs.restart.host (owner_mem_held hshare)
      exact yields_keepShared hretained (Host.Gains.refl.retain s.owner) goal s
  | handleOfShared source goal =>
    simp only [after, perform, Answer.ofOption, handleOfShared]
    split
    · exact .raised .refl
    · next s hshare =>
      have hretained := hs.retainOwner hs.restart.host (owner_mem_held hshare)
      exact yields_keep hretained (Host.Gains.refl.retain s.owner) goal _
  | dropShared name =>
    simp only [after, perform, Answer.of, dropShared]
    split
    · exact .raised .refl
    · next s hshare =>
      have howner : s.owner ∈ 0 + w.held := Multiset.mem_add.2 (.inr (owner_mem_held hshare))
      exact Host.Gains.refl.releaseMember hs.host howner

end Counts

/-! ## Exact counters -/

/-- The counters say what is there, for listed libraries as for those that were forgotten or registered
again, and no action takes one away from zero. -/
structure Tallied (w : World) : Prop where
  live : ∀ l, w.Refers l → (∃ r, w.host.records.find? l.id = some r ∧ r.library = l) ∧
    ∃ living : Finset Instance, (∀ x, x ∈ living ↔ w.Lives x ∧ x.library = l) ∧
      w.host.live l = living.card
  uses : ∀ x, w.Lives x →
    w.host.uses x = w.genericHolders x + w.specializedHolders x + w.sharedHolders x ∧ 1 ≤ w.host.uses x
  bound : ∀ name y x, w.handles.find? name = some y → y.handle.held = some x →
    w.Lives x ∧ y.handle.uses w.host = w.host.uses x
  empty : ∀ name y, w.handles.find? name = some y → y.handle.held = none → y.handle.uses w.host = 0
  actions : ∀ a, w.host.Counts (w.after a).host

/-- In every reachable world the counters are exact. -/
theorem tallied {w : World} (hw : Reachable w) : Tallied w where
  live := fun _ hl => exists_living hw hl
  uses := by
    intro x hx
    obtain ⟨huses, hpos⟩ := uses_of_lives hw hx
    exact ⟨huses.trans (w.count_held x), hpos⟩
  bound := by
    intro name y x hy hx
    have hs := sound_of_reachable (fun _ => False) hw
    refine ⟨hs.lives_iff.2 (owned_subset_held hy (Handle.mem_owned.2 hx)), ?_⟩
    rw [Handle.uses, hx]
  empty := by
    intro name y _ hnone
    rw [Handle.uses, hnone]
  actions := fun a => (yields_after hw a).counts

/-- One instance has holders of all three kinds, and its library was registered again; the library of another
one, of an older version, was forgotten. -/
def diverse : World :=
  (start (.withDirectory ["w"])).run
    [.changeFiles (.write ⟨"/w/a.so"⟩ (.library Image.dummyPlugins)),
      .changeFiles (.write ⟨"/w/l.so"⟩ (.library
        (Image.legacyPlugin "dynaplug_legacy_v1" "legacy_v1" "LegacyV1Plugin" Abi.returnVersion))),
      .newLoader "first" .standard ⟨[]⟩,
      .load "first" ⟨"/w/a.so"⟩,
      .load "first" ⟨"/w/l.so"⟩,
      .instantiate "first" "dynaplug_dummy_plugins::DummySinglePlugin" "h" none,
      .instantiate "first" "legacy_v1::LegacyV1Plugin" "old" none,
      .cloneHandle "h" "g",
      .specialize "h" "s" ⟨[Catalog.nameBase]⟩,
      .share "h" Catalog.nameBase "c",
      .load "first" ⟨"/w/a.so"⟩,
      .forget "first" ⟨"/w/l.so"⟩]

theorem tallied_of_diverse : Reachable diverse ∧
    (∃ x, diverse.Lives x ∧ diverse.host.uses x = 4 ∧ diverse.genericHolders x = 2 ∧
      diverse.specializedHolders x = 1 ∧ diverse.sharedHolders x = 1) ∧
    ∃ x, diverse.Lives x ∧ x.info.deleter = .leak ∧ diverse.host.uses x = 1 ∧
      (diverse.loaders.find? "first").bind (fun L => L.libraries.find? x.library.path) = none ∧
      ∃ living : Finset Instance, living.card = 1 ∧ x ∈ living := by
  have hreach : Reachable diverse := (Reachable.start _).run _
  have htallied : Tallied diverse := tallied hreach
  have hshared : ((diverse.handles.find? "h").bind fun y => y.handle.held).map (fun x =>
      (diverse.genericHolders x, diverse.specializedHolders x, diverse.sharedHolders x)) =
        some (2, 1, 1) := by
    decide +kernel
  have hforgotten : ((diverse.handles.find? "old").bind fun y => y.handle.held).map (fun x =>
      (x.info.deleter, diverse.host.uses x, diverse.host.live x.library,
        ((diverse.loaders.find? "first").bind fun L => L.libraries.find? x.library.path).isNone)) =
        some (.leak, 1, 1, true) := by
    decide +kernel
  obtain ⟨x, hx, hcounts⟩ := Option.map_eq_some_iff.1 hshared
  obtain ⟨y, hy, hheld⟩ := Option.bind_eq_some_iff.1 hx
  obtain ⟨x', hx', hcounts'⟩ := Option.map_eq_some_iff.1 hforgotten
  obtain ⟨y', hy', hheld'⟩ := Option.bind_eq_some_iff.1 hx'
  simp only [Prod.mk.injEq, Option.isNone_iff_eq_none] at hcounts hcounts'
  obtain ⟨hgeneric, hspecialized, hsharedHolders⟩ := hcounts
  obtain ⟨hleak, huses', hlive, hunlisted⟩ := hcounts'
  have hlives := (htallied.bound "h" y x hy hheld).1
  have hlives' := (htallied.bound "old" y' x' hy' hheld').1
  have huses := (htallied.uses x hlives).1
  rw [hgeneric, hspecialized, hsharedHolders] at huses
  obtain ⟨-, living, hmem, hcard⟩ := htallied.live x'.library (.instance hlives' rfl)
  rw [hlive] at hcard
  exact ⟨hreach, ⟨x, hlives, huses, hgeneric, hspecialized, hsharedHolders⟩,
    x', hlives', hleak, huses', hunlisted, living, hcard.symm, (hmem x').2 ⟨hlives', rfl⟩⟩

end PluginHost.World
