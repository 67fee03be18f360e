import PluginHost.Proofs.Loader.Forgotten
import PluginHost.Proofs.World.Soundness

/-!
# Forgetting by plugin

The library of a known plugin is forgotten by its path, and the path is asked of the files once more. As
long as it does not lead to another listed library, exactly the library of the plugin is forgotten,
whatever has become of the file. If it does, the other library is forgotten in its place.

* `World.withFiles`: the world with other files.
* `World.Forgetting`: what forgetting by plugin does.
* `World.forgetting`: so it is for every plugin that a loader of a reachable world knows, and for all files.
-/

namespace PluginHost.World

set_option autoImplicit false

open PluginHost.Table

def withFiles (w : World) (files : FileTree) : World := { w with host := { w.host with files := files } }

/-- What happens when the library of a plugin is forgotten that the loader knows by the entry `e`. -/
structure Forgetting (w : World) (loader plugin : String) (L : Loader) (e : IndexEntry) : Prop where
  path : L.libraryOf plugin = some e.library.path
  answer : (w.forgetOf loader plugin).1 = some true
  /-- Unless its path is redirected, that path is forgotten and the plugin is not known any more. -/
  straight : ¬ L.Redirected w.host.files e.library.path →
    ∃ L', (w.forgetOf loader plugin).2.loaders.find? loader = some L' ∧
      L.Without L' e.library.path ∧ L'.libraryOf plugin = none
  /-- If it leads to another listed library, that one is forgotten, and the plugin stays as it is. -/
  astray : ∀ k, w.host.files.canonical? e.library.path = some k → L.libraries.contains k = true →
    ¬ (k == e.library.path) = true →
    ∃ L', (w.forgetOf loader plugin).2.loaders.find? loader = some L' ∧
      L.Without L' k ∧ L'.index.find? (Name.normalize plugin) = some e

theorem forgetting {w : World} (hw : Reachable w) {loader plugin : String} {L : Loader} {e : IndexEntry}
    (hL : w.loaders.find? loader = some L) (he : L.index.find? (Name.normalize plugin) = some e)
    (files : FileTree) : Forgetting (w.withFiles files) loader plugin L e := by
  have hc := (sound_of_reachable (fun _ => False) hw).consistent loader L hL
  obtain ⟨key, hwhich, hsame, hanswer, hremoved⟩ :=
    Loader.forgetOf_known hc he (w.withFiles files).host
  have hworld : (w.withFiles files).forgetOf loader plugin =
      (some (L.forgetOf (w.withFiles files).host plugin).1,
        { w with
          host := (L.forgetOf (w.withFiles files).host plugin).2.2
          loaders := w.loaders.put loader (L.remove key) }) := by
    rw [← hremoved]
    simp only [World.forgetOf, onLoader, withFiles, hL]
  have hwithout := hc.without_remove key
  have hfound : ((w.withFiles files).forgetOf loader plugin).2.loaders.find? loader =
      some (L.remove key) := by
    rw [hworld]
    exact find?_put_self _ _ _
  refine ⟨by simp [Loader.libraryOf, he], by rw [hworld, hanswer], fun hstraight => ?_, ?_⟩
  · have hbeq := hsame.2 hstraight
    have hown := hwithout.of_beq hbeq
    refine ⟨_, hfound, hown, ?_⟩
    simp only [Loader.libraryOf, hown.index_eq_none he BEq.rfl, Option.map_none]
  · intro k hk hlisted hother
    have hredirected : L.Redirected files e.library.path := ⟨k, hk, hlisted, hother⟩
    have hdiffers : ¬ (key == e.library.path) = true := fun hbeq => hsame.1 hbeq hredirected
    have hkey : key = k := by
      rcases hwhich with rfl | hcanonical
      · exact absurd BEq.rfl hdiffers
      · exact Option.some.inj (hcanonical.symm.trans hk)
    subst hkey
    refine ⟨_, hfound, hwithout, (hwithout.index _ e).2 ⟨he, ?_⟩⟩
    rw [BEq.comm]
    exact hdiffers

def paired : World :=
  (start (.withDirectory ["w"])).run
    [.changeFiles (.write ⟨"/w/a.so"⟩ (.library Image.dummyPlugins)),
      .changeFiles (.write ⟨"/w/b.so"⟩ (.library (Image.ofRegistered "b" "b"
        [⟨"Plugin", [Catalog.nameBase], .named "Plugin"⟩]))),
      .newLoader "first" .standard ⟨[]⟩,
      .load "first" ⟨"/w/a.so"⟩,
      .load "first" ⟨"/w/b.so"⟩]

def relinked : FileTree := paired.host.files.makeLink ⟨"/w/a.so"⟩ ⟨"/w/b.so"⟩

/-- A plugin of the first library is to be forgotten after its file became a link to the second one. -/
theorem forgetting_of_relinked : Reachable paired ∧
    ∃ L e, paired.loaders.find? "first" = some L ∧
      L.index.find? (Name.normalize "dynaplug_dummy_plugins::DummyMultiPlugin") = some e ∧
      Forgetting (paired.withFiles relinked) "first" "dynaplug_dummy_plugins::DummyMultiPlugin" L e ∧
      L.Redirected relinked e.library.path := by
  have hreach : Reachable paired := (Reachable.start _).run _
  have hanswers : (paired.loaders.find? "first").map (fun L =>
      (L.libraryOf "dynaplug_dummy_plugins::DummyMultiPlugin", L.libraries.contains ⟨"/w/b.so"⟩)) =
      some (some ⟨"/w/a.so"⟩, true) := by decide +kernel
  have hleads : relinked.canonical? ⟨"/w/a.so"⟩ = some ⟨"/w/b.so"⟩ := by decide +kernel
  obtain ⟨L, hL, hboth⟩ := Option.map_eq_some_iff.1 hanswers
  obtain ⟨hknown, hlisted⟩ := Prod.mk.inj hboth
  obtain ⟨e, he, hpath⟩ := Option.map_eq_some_iff.1 hknown
  refine ⟨hreach, L, e, hL, he, forgetting hreach hL he relinked, ?_⟩
  rw [hpath]
  exact ⟨⟨"/w/b.so"⟩, hleads, hlisted, by decide⟩

end PluginHost.World
