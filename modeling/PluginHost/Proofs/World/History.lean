import PluginHost.Proofs.Loader.History
import PluginHost.Proofs.Loader.Representation
import PluginHost.Proofs.World.Operations

/-!
# What a loader knows

Every answer of a loader about names and libraries follows from the history of its own operations: from
the names that were registered under each key and the keys that were forgotten, in their order. Whatever
else happens in the world has no part in it.

* `Loader.Recounted`: the answers of a loader are those of a history.
* `World.recounted`: so it is for every loader, in every world that actions lead to.
-/

namespace PluginHost

set_option autoImplicit false

open PluginHost.Table

namespace Loader

/-- What the loader answers is what the history comes to. -/
structure Recounted (L : Loader) (history : List Episode) : Prop where
  /-- The library of a plugin is the owner of its name. -/
  owner : ∀ plugin, L.libraryOf plugin = owners history (Name.normalize plugin)
  /-- A plugin is known exactly when its name has an owner. -/
  known : ∀ plugin, (L.pluginInfo plugin).isSome = (owners history (Name.normalize plugin)).isSome
  plugins : ∀ n, n ∈ L.plugins ↔ (owners history n).isSome = true
  /-- The listed libraries are the standing keys, with the names that were registered last. -/
  listed : ∀ key names, (∃ l ∈ L.listed, l.path = key ∧ l.plugins = names) ↔ Standing history key names
  /-- Each key is listed once. -/
  once : L.listed.Pairwise fun l l' => ¬ (l.path == l'.path) = true
  /-- A name goes with its owner, also if another listed library was registered with it. -/
  gone : ∀ h p key plugin owner, L.listedKey h.files p = some key → L.libraryOf plugin = some owner →
    (owner == key) = true → (L.forget h p).2.1.libraryOf plugin = none
  /-- A name stays with its owner when another library is forgotten that was registered with it. -/
  kept : ∀ h p key plugin owner, L.listedKey h.files p = some key → L.libraryOf plugin = some owner →
    ¬ (owner == key) = true → (L.forget h p).2.1.libraryOf plugin = some owner

theorem mem_plugins {L : Loader} (hr : L.Represented) (hc : L.Consistent) {n : String} :
    n ∈ L.plugins ↔ (L.index.find? n).isSome = true := by
  simp only [plugins, infos, Ordered.mem_ofList, List.mem_map]
  constructor
  · rintro ⟨_, ⟨e, hvalue, rfl⟩, rfl⟩
    obtain ⟨⟨k, e⟩, he, rfl⟩ := List.mem_map.1 hvalue
    have hname : e.info.name = k := hr.name (k, e) he
    simp [hname, find?_of_mem hc.index he]
  · intro hsome
    obtain ⟨e, he⟩ := Option.isSome_iff_exists.1 hsome
    obtain ⟨k, hmem, hkey⟩ := exists_mem_of_find? he
    refine ⟨e.info, ⟨e, mem_values_of_find? he, rfl⟩, ?_⟩
    exact (hr.name (k, e) hmem).trans (eq_of_beq hkey)

theorem Consistent.pairwise_listed {L : Loader} (hc : L.Consistent) (hr : L.Represented) :
    L.listed.Pairwise fun l l' => ¬ (l.path == l'.path) = true := by
  have hvalues : L.libraries.values.Pairwise fun l l' => ¬ (l.path == l'.path) = true := by
    refine List.pairwise_map.2 (hc.libraries.imp_of_mem fun {a b} ha hb hne hsame => ?_)
    have hkeys : (a.1 == b.1) = true :=
      BEq.trans (hr.path a ha) (BEq.trans hsame (BEq.symm (hr.path b hb)))
    rw [hne] at hkeys
    cases hkeys
  refine (List.mergeSort_perm _ _).symm.pairwise hvalues fun {l l'} hne hsame => hne ?_
  exact BEq.symm hsame

theorem Recounts.answers {L : Loader} {history : List Episode} (hr : L.Recounts history)
    (hrep : L.Represented) : L.Recounted history := by
  have howner : ∀ plugin, L.libraryOf plugin = owners history (Name.normalize plugin) :=
    fun plugin => hr.owner (Name.normalize plugin)
  have hforget : ∀ h p key plugin, L.listedKey h.files p = some key →
      (L.forget h p).2.1.libraryOf plugin = (L.libraryOf plugin).filter fun k => !(k == key) := by
    intro h p key plugin hkey
    rw [(forget_of_listedKey hkey).2, howner]
    have hafter := (hr.remove key).owner (Name.normalize plugin)
    rw [owners_concat] at hafter
    exact hafter
  constructor
  case owner => exact howner
  case known =>
    intro plugin
    rw [← howner]
    simp [pluginInfo, libraryOf]
  case plugins =>
    intro n
    rw [mem_plugins hrep hr.consistent, ← hr.owner n, Option.isSome_map]
  case listed =>
    intro key names
    rw [← hr.listed key names]
    constructor
    · rintro ⟨l, hl, rfl, rfl⟩
      exact ⟨l, hr.consistent.mem_listed.1 hl, rfl, rfl⟩
    · rintro ⟨l, hl, rfl, rfl⟩
      exact ⟨l, hr.consistent.mem_listed.2 hl, rfl, rfl⟩
  case once => exact hr.consistent.pairwise_listed hrep
  case gone =>
    intro h p key plugin owner hkey howns hsame
    rw [hforget h p key plugin hkey, howns]
    simp [hsame]
  case kept =>
    intro h p key plugin owner hkey howns hother
    rw [hforget h p key plugin hkey, howns]
    simp [hother]

end Loader

namespace World

/-- A loader is what its operations made of an empty one with its settings, and it answers what their
history comes to. -/
theorem recounted {files : FileTree} {actions : List Action} {loader : String} {L : Loader}
    (hL : ((start files).run actions).loaders.find? loader = some L) :
    let operations := operationsOf loader (start files) [] actions
    L = (Loader.withConfig L.config).after operations ∧
      L.Recounted ((Loader.withConfig L.config).history operations) := by
  have hmade := loader_run hL
  have hrecounts := Loader.recounts_after L.config (operationsOf loader (start files) [] actions)
  have hrep := Loader.represented_after (Loader.represented_withConfig L.config)
    (operationsOf loader (start files) [] actions)
  rw [← hmade] at hrecounts hrep
  exact ⟨hmade, hrecounts.answers hrep⟩

/-- Two libraries are registered with the same name, and the one that was loaded first is forgotten. -/
def overwriting : List Action :=
  [.changeFiles (.write ⟨"/w/a.so"⟩ (.library Image.dummyPlugins)),
    .changeFiles (.write ⟨"/w/b.so"⟩ (.library (Image.ofRegistered "b" "dynaplug_dummy_plugins"
      [⟨"DummySinglePlugin", [Catalog.nameBase], .named "DummySinglePlugin"⟩]))),
    .newLoader "first" .standard ⟨[]⟩,
    .load "first" ⟨"/w/a.so"⟩,
    .load "first" ⟨"/w/./b.so"⟩,
    .forget "first" ⟨"/w/a.so"⟩]

/-- The name stays with the library that was loaded last, and is not known any more when that one is
forgotten too. -/
theorem recounted_of_overwriting : ∃ L,
    ((start (.withDirectory ["w"])).run overwriting).loaders.find? "first" = some L ∧
      L.Recounted
        [.registered ⟨"/w/a.so"⟩ ["::dynaplug_dummy_plugins::DummyMultiPlugin",
            "::dynaplug_dummy_plugins::DummySinglePlugin"],
          .registered ⟨"/w/b.so"⟩ ["::dynaplug_dummy_plugins::DummySinglePlugin"],
          .forgot ⟨"/w/a.so"⟩] ∧
      L.libraryOf "dynaplug_dummy_plugins::DummySinglePlugin" = some ⟨"/w/b.so"⟩ ∧
      ∀ h, L.listedKey h.files ⟨"/w/b.so"⟩ = some ⟨"/w/b.so"⟩ →
        (L.forget h ⟨"/w/b.so"⟩).2.1.libraryOf "dynaplug_dummy_plugins::DummySinglePlugin" = none := by
  have hhistory : (((start (.withDirectory ["w"])).run overwriting).loaders.find? "first").map
      (fun L => (Loader.withConfig L.config).history
        (operationsOf "first" (start (.withDirectory ["w"])) [] overwriting)) =
      some [.registered ⟨"/w/a.so"⟩ ["::dynaplug_dummy_plugins::DummyMultiPlugin",
            "::dynaplug_dummy_plugins::DummySinglePlugin"],
          .registered ⟨"/w/b.so"⟩ ["::dynaplug_dummy_plugins::DummySinglePlugin"],
          .forgot ⟨"/w/a.so"⟩] := by decide +kernel
  obtain ⟨L, hL, hepisodes⟩ := Option.map_eq_some_iff.1 hhistory
  have hrecounted := (recounted hL).2
  rw [hepisodes] at hrecounted
  have howner : L.libraryOf "dynaplug_dummy_plugins::DummySinglePlugin" = some ⟨"/w/b.so"⟩ := by
    rw [hrecounted.owner]
    decide +kernel
  exact ⟨L, hL, hrecounted, howner, fun h hkey => hrecounted.gone h _ _ _ _ hkey howner BEq.rfl⟩

end World

end PluginHost
