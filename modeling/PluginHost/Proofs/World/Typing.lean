import PluginHost.Proofs.Capability.Set
import PluginHost.Proofs.Image.Uses
import PluginHost.Proofs.World.LifeCycle
import PluginHost.Proofs.World.Transparency

/-!
# Typed queries

A query asks for an interface type and looks for its name. What it finds is of that type as long as no
spelling of a name is used for two types: in the tables of the images in memory and among the types that
are asked for. It is not enough that no name is, for names are compared in their canonical spelling.

* `World.made_of_held`: what every instance has when it is made.
* `World.uses`: what names are used for in a world.
* `World.Typed`: a query for an interface finds only what was published for it.
* `World.typed`: so it is in every reachable world whose names are not ambiguous.
-/

namespace PluginHost

set_option autoImplicit false

open PluginHost.Table

/-! ## Instances -/

namespace Instance

variable {x : Instance} {p : Pointer} {i j : Interface}

theorem Publishes.implemented (h : x.Publishes p i) : x.implemented p = some i := by
  rcases h with ⟨rfl, hproduct⟩ | ⟨rfl, -⟩
  · simp [Instance.implemented, hproduct]
  · rfl

/-- What is at a place was published for one interface at most. -/
theorem Publishes.unique (h : x.Publishes p i) (h' : x.Publishes p j) : j = i := by
  have hsame := h.implemented
  rw [h'.implemented, Option.some.injEq] at hsame
  exact hsame

end Instance

theorem Instance.find?_published {x : Instance} {i j : Interface} (h : x.published.find? i = some j) :
    j = i := by
  unfold Instance.published Product.published at h
  split at h
  · simp at h
  · exact (CapabilitySet.find?_ofInterfaces_iff.1 h).1
  · exact (CapabilitySet.find?_ofInterfaces_iff.1 h).1

theorem Instance.publishes_of_follow {x : Instance} {c : Caster} {i : Interface} {p : Pointer}
    (hgoal : x.info.goal c = some i) (h : x.follow c = some p) : x.Publishes p i := by
  cases c with
  | cast j =>
    rw [PluginInfo.goal, Option.some.injEq] at hgoal
    subst hgoal
    obtain ⟨k, hk, rfl⟩ := Option.map_eq_some_iff.1 h
    have hsame := find?_published hk
    subst hsame
    exact .inr ⟨rfl, hk⟩
  | identity =>
    rw [follow, Option.some.injEq] at h
    refine .inl ⟨h.symm, ?_⟩
    simp only [PluginInfo.goal, Product.bare] at hgoal
    split at hgoal
    · next j hproduct =>
      rw [Option.some.injEq] at hgoal
      rw [hproduct, hgoal]
    · simp at hgoal

namespace World

/-! ## What is made -/

/-- What every instance has when it is made, every instance has that something holds. -/
theorem made_of_held {P : Instance → Prop}
    (make : ∀ L h plugin x, (Loader.instantiate L h plugin).1.held = some x → P x) {w : World}
    (hw : Reachable w) {x : Instance} (hx : x ∈ w.held) : P x := by
  induction hw generalizing x with
  | start files => simp [held, heldBy, World.start] at hx
  | @step w a hw ih =>
    have hs := sound_of_reachable (w.Bears a) hw
    have hs' := hs.after a fun _ hid => hid
    obtain ⟨v, hv, rfl⟩ := hs'.lives_iff.2 hx
    by_cases hold : v.body.id < w.host.fresh
    · -- it lived before the action, as it is
      obtain ⟨v₀, hv₀, hbody⟩ := hs'.host.follows.survived _ v hold hv
      refine ih (hs.lives_iff.1 ⟨v₀, hv₀, hbody.symm⟩)
    · -- it was made in the action, and its identity tells which instance it is
      have hcreated := (hs'.host.chronicled.born _ v hv).1
      rcases hs'.host.follows.made _ _ _ hcreated with hc | hbears
      · exact absurd (hs.host.chronicled.unborn _ _ _ hc) hold
      · obtain ⟨y, hy, hid, -, L, plugin, -, hmade⟩ := held_of_bears hbears
        obtain ⟨v', hv', rfl⟩ := hs'.lives_iff.2 hy
        rw [hid, hv, Option.some.injEq] at hv'
        rw [hv']
        exact make L w.host plugin _ hmade

theorem product_of_held {w : World} (hw : Reachable w) {x : Instance} (hx : x ∈ w.held) :
    x.info.factory.product ≠ .nothing := by
  refine made_of_held (P := fun x => x.info.factory.product ≠ .nothing) ?_ hw hx
  intro L h plugin x hmade hnothing
  unfold Loader.instantiate at hmade
  split at hmade
  · next e _ =>
    by_cases hproduct : e.info.factory.product = .nothing
    · simp [h.instantiate_of_nothing e.library hproduct] at hmade
    · simp only [h.instantiate_fst e.library hproduct, Option.some.injEq] at hmade
      rw [← hmade] at hnothing
      exact hproduct hnothing
  · simp [Handle.empty] at hmade

/-! ## Names and what they are used for -/

/-- The uses of names in the tables of the images in memory, and those of the interfaces asked for. -/
def uses (w : World) (queried : List Interface) : List Use :=
  (w.host.mappings.values.flatMap fun m => m.image.uses) ++ queried.map fun i => (i.name, some i)

def Unambiguous (key : String → String) (uses : List Use) : Prop :=
  ∀ u ∈ uses, ∀ u' ∈ uses, key u.1 = key u'.1 → u.2 = u'.2

instance (key : String → String) (uses : List Use) : Decidable (Unambiguous key uses) :=
  inferInstanceAs (Decidable (∀ u ∈ uses, ∀ u' ∈ uses, key u.1 = key u'.1 → u.2 = u'.2))

theorem publishes_of_find {w : World} (hw : Reachable w) {queried : List Interface}
    (hu : Unambiguous Name.normalize (w.uses queried)) {i : Interface} (hi : i ∈ queried)
    {x : Instance} (hx : x ∈ w.held) {p : Pointer} (hp : x.find? i.name = some p) :
    x.Publishes p i := by
  have hs := sound_of_reachable (fun _ => False) hw
  obtain ⟨v, hv, rfl⟩ := hs.lives_iff.2 hx
  obtain ⟨m, hm, hoffers⟩ := hs.host.chronicled.backed _ v hv
  obtain ⟨c, hc, hfollow⟩ := Option.bind_eq_some_iff.1 hp
  obtain ⟨name, huse, hname⟩ := hoffers.use_of_caster (product_of_held hw hx) hc
  refine Instance.publishes_of_follow ?_ hfollow
  have hmapped : (name, v.body.info.goal c) ∈ w.uses queried :=
    List.mem_append_left _ (List.mem_flatMap.2 ⟨m, mem_values_of_find? hm, huse⟩)
  have hasked : (i.name, some i) ∈ w.uses queried :=
    List.mem_append_right _ (List.mem_map_of_mem hi)
  exact hu _ hmapped _ hasked hname

/-! ## Queries -/

/-- What a query for an interface finds, in the way of any handle, was published by the instance for
that interface and for no other. -/
structure Typed (w : World) (i : Interface) : Prop where
  query : ∀ name x p, w.handles.find? name = some x → (x.query w.host i).1 = some p →
    ∃ owner, x.handle.held = some owner ∧ owner.Publishes p i ∧ ∀ j, owner.Publishes p j → j = i
  share : ∀ name goal s, (w.share name i goal).1 = some (some s) →
    s.interface = i ∧ (∃ x, w.handles.find? name = some x ∧ x.handle.held = some s.owner) ∧
      s.owner.Publishes s.pointer i ∧ ∀ j, s.owner.Publishes s.pointer j → j = i

theorem typed {w : World} (hw : Reachable w) {queried : List Interface}
    (hu : Unambiguous Name.normalize (w.uses queried)) {i : Interface} (hi : i ∈ queried) :
    Typed w i := by
  have hfound : ∀ name x p, w.handles.find? name = some x → (x.query w.host i).1 = some p →
      ∃ owner, x.handle.held = some owner ∧ owner.Publishes p i := by
    intro name x p hx hp
    rw [(bound_of_reachable hw name x hx).query_fst] at hp
    obtain ⟨owner, howner, hp⟩ := Option.bind_eq_some_iff.1 hp
    have hheld := owned_subset_held hx (Handle.mem_owned.2 howner)
    exact ⟨owner, howner, publishes_of_find hw hu hi hheld hp⟩
  constructor
  case query =>
    intro name x p hx hp
    obtain ⟨owner, howner, hpublishes⟩ := hfound name x p hx hp
    exact ⟨owner, howner, hpublishes, fun j hj => hpublishes.unique hj⟩
  case share =>
    intro name goal s hshare
    unfold World.share onHandle at hshare
    split at hshare
    · simp at hshare
    · next x hx =>
      simp only [Option.some.injEq] at hshare
      split at hshare
      · next owner p howner hp =>
        obtain ⟨owner', howner', hpublishes⟩ := hfound name x p hx hp
        rw [howner, Option.some.injEq] at howner'
        subst howner'
        rw [← Option.some.inj hshare]
        exact ⟨rfl, ⟨x, hx, howner⟩, hpublishes, fun j hj => hpublishes.unique hj⟩
      · simp at hshare

/-- Two libraries, one of an older version, with an instance of each; one handle is specialized. -/
def mixed : World :=
  (start (.withDirectory ["w"])).run
    [.changeFiles (.write ⟨"/w/a.so"⟩ (.library Image.dummyPlugins)),
      .changeFiles (.write ⟨"/w/b.so"⟩
        (.library (Image.legacyPlugin "legacy" "legacy" "Plugin" Abi.returnVersion))),
      .newLoader "first" .standard ⟨[]⟩,
      .load "first" ⟨"/w/a.so"⟩,
      .load "first" ⟨"/w/b.so"⟩,
      .instantiate "first" "dynaplug_dummy_plugins::DummyMultiPlugin" "new"
        (some ⟨[Catalog.nameBase, Catalog.intBase]⟩),
      .instantiate "first" "legacy::Plugin" "old" none]

theorem typed_of_mixed : Reachable mixed ∧
    Unambiguous Name.normalize (mixed.uses [Catalog.nameBase]) ∧ Typed mixed Catalog.nameBase ∧
    (mixed.handles.find? "new").bind (fun x => (x.query mixed.host Catalog.nameBase).1) =
      some (.capability 5 Catalog.nameBase) ∧
    (mixed.handles.find? "old").bind (fun x => (x.query mixed.host Catalog.nameBase).1) =
      some (.object 6) := by
  have hreach : Reachable mixed := (Reachable.start _).run _
  have hall : Unambiguous Name.normalize (mixed.uses [Catalog.nameBase]) ∧
      (mixed.handles.find? "new").bind (fun x => (x.query mixed.host Catalog.nameBase).1) =
        some (.capability 5 Catalog.nameBase) ∧
      (mixed.handles.find? "old").bind (fun x => (x.query mixed.host Catalog.nameBase).1) =
        some (.object 6) := by decide +kernel
  obtain ⟨hnames, hnew, hold⟩ := hall
  exact ⟨hreach, hnames, typed hreach hnames (by simp), hnew, hold⟩

/-! ## Names that differ by blanks -/

/-- A plugin lists one interface under the name of another, with a blank in front. -/
def blurredImage : Image where
  id := "a"
  reports := false
  version := some Abi.currentVersion
  infoSize := some Abi.descriptorSize
  multi := some
    ⟨[{ name := some (Text.Utf8.encode "x")
        interfaces := some
          [⟨some (Text.Utf8.encode (" " ++ Catalog.nameBase.name)), some Catalog.intBase⟩]
        factory := some ⟨"a.0", .cell [Catalog.intBase], .named "x"⟩
        hasDeleter := true }], none⟩
  single := none

def blurred : World :=
  (start (.withDirectory ["w"])).run
    [.changeFiles (.write ⟨"/w/a.so"⟩ (.library blurredImage)),
      .newLoader "first" .standard ⟨[]⟩,
      .load "first" ⟨"/w/a.so"⟩,
      .instantiate "first" "x" "h" none]

/-- No name is used for two interfaces, and still a query for one interface finds the other. -/
theorem not_typed_of_blurred : Reachable blurred ∧
    Unambiguous id (blurred.uses [Catalog.nameBase, Catalog.intBase]) ∧
    ¬ Typed blurred Catalog.nameBase := by
  refine ⟨(Reachable.start _).run _, by decide +kernel, fun htyped => ?_⟩
  have hfound : (blurred.handles.find? "h").bind
      (fun x => (x.query blurred.host Catalog.nameBase).1) =
      some (.capability 3 Catalog.intBase) := by decide +kernel
  obtain ⟨x, hx, hp⟩ := Option.bind_eq_some_iff.1 hfound
  obtain ⟨owner, -, hpublishes, -⟩ := htyped.query "h" x _ hx hp
  have hwrong : some Catalog.intBase = some Catalog.nameBase := hpublishes.implemented
  exact absurd hwrong (by decide)

end World

end PluginHost
