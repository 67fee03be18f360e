import PluginHost.Proofs.Loader.Settled
import PluginHost.Proofs.World.Residency

/-!
# Listed libraries and known plugins

A loader answers the path of the library of a known plugin, and lists one library under that path. The
two are the same library unless a later load replaced the listed one by another that does not name the
plugin: the plugin then keeps the library that it came with, and what is listed says nothing about it.

* `World.Listing`: what is listed for a known plugin, and when it is the library of the plugin.
* `World.listing`: so it is for every plugin that a loader of a reachable world knows.
-/

namespace PluginHost.World

set_option autoImplicit false

open PluginHost.Table

/-- What the loader lists for a plugin that it knows by the entry `e`. -/
structure Listing (w : World) (L : Loader) (plugin : String) (e : IndexEntry) (l : Library) :
    Prop where
  /-- The path of the library that the plugin came with is answered. -/
  path : L.libraryOf plugin = some e.library.path
  /-- One library is listed under it. -/
  only : ∀ l', l' ∈ L.listed ∧ (l'.path == e.library.path) = true ↔ l' = l
  /-- It is the library that the plugin came with if and only if it was registered with the plugin. -/
  same : l = e.library ↔ l.provides plugin = true
  /-- If and only if it was, a new instance of the plugin is counted for it. -/
  counted : e.info.factory.product ≠ .nothing →
    (L.instantiate w.host plugin).2.live l = w.host.live l + if l.provides plugin then 1 else 0
  /-- After a load the two are the same if and only if the load named the plugin, or they were the same
  before and the load named nothing or had another key. -/
  loading : ∀ p names, (L.tryLoad w.host p).1 = .ok names →
    ((L.tryLoad w.host p).2.1.Settled (Name.normalize plugin) ↔
      Name.normalize plugin ∈ names ∨ l.provides plugin = true ∧
        (names = [] ∨ ¬ (Loader.libraryKey w.host.files p == e.library.path) = true))

/-- For every known plugin one library is listed under the path of its library, and it is that library
if and only if it was registered with the plugin. -/
theorem listing {w : World} (hw : Reachable w) {name plugin : String} {L : Loader} {e : IndexEntry}
    (hL : w.loaders.find? name = some L) (he : L.index.find? (Name.normalize plugin) = some e) :
    ∃ l, Listing w L plugin e l := by
  have hs := sound_of_reachable (fun _ => False) hw
  have hb := hs.host.balanced
  have hc := hs.consistent name L hL
  obtain ⟨l, hl⟩ := hc.listed _ e he
  have hprovides : l.provides plugin = true ↔ Name.normalize plugin ∈ l.plugins := by
    simp [Library.provides]
  obtain ⟨hsame, hsettled⟩ := hc.settled_iff he hl
  rw [← hprovides] at hsame hsettled
  refine ⟨l, ?_, fun l' => ?_, hsame, fun hp => ?_, fun p names hok => ?_⟩
  · simp only [Loader.libraryOf, he, Option.map_some]
  · constructor
    · rintro ⟨hmem, hpath⟩
      have hfound := hc.mem_listed.1 hmem
      rw [find?_congr L.libraries hpath, hl] at hfound
      exact (Option.some.inj hfound).symm
    · rintro rfl
      have hpath := hc.filed e.library.path l' hl
      refine ⟨hc.mem_listed.2 ?_, hpath⟩
      rw [find?_congr L.libraries hpath]
      exact hl
  · have hlib : l ∈ w.references + w.host.makers :=
      Multiset.mem_add.2 (.inl (mem_referencesOf hL (Loader.mem_references_of_table hl)))
    have hown : e.library ∈ w.references + w.host.makers :=
      Multiset.mem_add.2 (.inl (mem_referencesOf hL (Loader.mem_references_of_index he)))
    obtain ⟨r, hr, -⟩ := hb.records.kept e.library hown
    have hid : l.id = e.library.id ↔ l.provides plugin = true := by
      rw [← hsame]
      exact ⟨fun hid => hb.records.eq_of_key_eq hlib hown hid, fun heq => congrArg Library.id heq⟩
    simp only [Loader.instantiate, he, Host.live_instantiate _ hp hr, hid]
  · rw [Loader.settled_tryLoad_iff hc hok, hsettled]
    simp [he]

/-- A file is loaded, replaced by one with fewer plugins, and loaded again under another spelling of its
path. -/
def replaced : World :=
  (start (.withDirectory ["w"])).run
    [.changeFiles (.write ⟨"/w/a.so"⟩ (.library Image.dummyPlugins)),
      .newLoader "first" .standard ⟨[]⟩,
      .load "first" ⟨"/w/a.so"⟩,
      .changeFiles (.write ⟨"/w/a.so"⟩ (.library (Image.ofRegistered "b" "dynaplug_dummy_plugins"
        [⟨"DummySinglePlugin", [Catalog.nameBase], .named "DummySinglePlugin"⟩]))),
      .load "first" ⟨"/w/./a.so"⟩]

/-- The plugin that the first file has and the second one has not. -/
def leftOut : String := "dynaplug_dummy_plugins::DummyMultiPlugin"

/-- The plugin that was left out is still known, and the library that is listed for it is not the one
that it came with. -/
theorem listing_of_replaced : Reachable replaced ∧
    ∃ L e l, replaced.loaders.find? "first" = some L ∧
      L.index.find? (Name.normalize leftOut) = some e ∧ Listing replaced L leftOut e l ∧
      l ≠ e.library := by
  have hreach : Reachable replaced := (Reachable.start _).run _
  have hanswers : (replaced.loaders.find? "first").map
      (fun L => ((L.libraryOf leftOut).isSome, L.providers leftOut)) =
      some (true, [(⟨"/w/a.so"⟩, false)]) := by decide +kernel
  obtain ⟨L, hL, hboth⟩ := Option.map_eq_some_iff.1 hanswers
  obtain ⟨hknown, hproviders⟩ := Prod.mk.inj hboth
  obtain ⟨path, hpath⟩ := Option.isSome_iff_exists.1 hknown
  obtain ⟨e, he, -⟩ := Option.map_eq_some_iff.1 hpath
  obtain ⟨l, hl⟩ := listing hreach hL he
  refine ⟨hreach, L, e, l, hL, he, hl, fun heq => ?_⟩
  have hmem : (l.path, l.provides leftOut) ∈ L.providers leftOut :=
    List.mem_map.2 ⟨l, ((hl.only l).2 rfl).1, rfl⟩
  rw [hproviders, hl.same.1 heq] at hmem
  simp at hmem

end PluginHost.World
