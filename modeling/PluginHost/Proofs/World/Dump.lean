import PluginHost.Proofs.Loader.Dump
import PluginHost.Proofs.World.Lookup

/-!
# The text of an index

The text that a loader writes of its index can be read without the loader, and it determines the names in the
index. Nothing else shows in it: neither the order of loading nor the paths of the libraries nor the settings.

* `World.orderly_of_reachable`: indices in reachable worlds are in order.
* `World.legible`: their texts are read back, and are equal for the same names alone.
-/

namespace PluginHost.World

set_option autoImplicit false

open PluginHost.Table

theorem orderly_of_reachable {w : World} (hw : Reachable w) {loader : String} {L : Loader}
    (hL : w.loaders.find? loader = some L) : L.Orderly where
  represented := represented_of_reachable hw hL
  distinct := ((sound_of_reachable (fun _ => False) hw).consistent loader L hL).index
  sorted := by
    have hload : ∀ (L : Loader) h p, L.Sorted → (L.load h p).2.1.Sorted := by
      intro L h p hs
      rw [Loader.load_loader]
      exact hs.tryLoad h p
    exact loader_of_reachable Loader.sorted_withConfig hload (fun L key hs => hs.remove key) hw hL

/-- In every reachable world the text of a loader is read back, and it is the text of another loader, maybe in
another world, exactly when both know the same names. -/
theorem legible {w : World} (hw : Reachable w) {loader : String} {L : Loader}
    (hL : w.loaders.find? loader = some L) :
    (∃ r, L.Legible r) ∧ ∀ (w' : World) (loader' : String) (L' : Loader), Reachable w' →
      w'.loaders.find? loader' = some L' → (L.dump = L'.dump ↔ L.SameNames L') := by
  have ho := orderly_of_reachable hw hL
  exact ⟨⟨L.report, ho.legible_report⟩, fun w' loader' L' hw' hL' =>
    ho.dump_eq_iff (orderly_of_reachable hw' hL')⟩

/-- A library with a plugin whose name looks like what is written behind names. -/
def misleading : Image :=
  Image.ofRegistered "a" "shapes" [⟨"Tag] which implements 2 interfaces:", [Catalog.nameBase], .named "Tag"⟩]

def plain : Image :=
  Image.ofRegistered "b" "shapes" [⟨"Square", [Catalog.nameBase, Catalog.intBase], .named "Square"⟩]

/-- Both libraries were loaded. -/
def forth : World :=
  (start (.withDirectory ["w"])).run
    [.changeFiles (.write ⟨"/w/a.so"⟩ (.library misleading)),
      .changeFiles (.write ⟨"/w/b.so"⟩ (.library plain)),
      .newLoader "first" .standard ⟨[]⟩,
      .load "first" ⟨"/w/a.so"⟩,
      .load "first" ⟨"/w/b.so"⟩]

/-- They were loaded from other paths, in the other order and with other settings. -/
def back : World :=
  (start (.withDirectory ["v"])).run
    [.changeFiles (.write ⟨"/v/b.so"⟩ (.library plain)),
      .changeFiles (.write ⟨"/v/a.so"⟩ (.library misleading)),
      .newLoader "other" (.values (some "reject") none none) ⟨[]⟩,
      .load "other" ⟨"/v/b.so"⟩,
      .load "other" ⟨"/v/a.so"⟩]

theorem legible_of_forth : Reachable forth ∧ Reachable back ∧
    ∃ L L' r, forth.loaders.find? "first" = some L ∧ back.loaders.find? "other" = some L' ∧
      L.config ≠ L'.config ∧ L.SameNames L' ∧ L.Legible r ∧
      r.blocks = [⟨"::shapes::Square", 2, ["::dynaplug_testing::interfaces::IntBase",
          "::dynaplug_testing::interfaces::NameBase"]⟩,
        ⟨"::shapes::Tag]whichimplements2interfaces:", 1, ["::dynaplug_testing::interfaces::NameBase"]⟩] := by
  have hreach : Reachable forth := (Reachable.start _).run _
  have hreach' : Reachable back := (Reachable.start _).run _
  have hkept : (do
      let L ← forth.loaders.find? "first"
      let L' ← back.loaders.find? "other"
      return decide (L.config ≠ L'.config ∧ L.dump = L'.dump ∧
        L.report.blocks =
          [⟨"::shapes::Square", 2, ["::dynaplug_testing::interfaces::IntBase",
              "::dynaplug_testing::interfaces::NameBase"]⟩,
            ⟨"::shapes::Tag]whichimplements2interfaces:", 1,
              ["::dynaplug_testing::interfaces::NameBase"]⟩])) = some true := by
    decide +kernel
  simp only [Option.bind_eq_bind, Option.bind_eq_some_iff, Option.pure_def, Option.some.injEq,
    decide_eq_true_eq] at hkept
  obtain ⟨L, hL, L', hL', hconfig, hdump, hblocks⟩ := hkept
  obtain ⟨⟨r, hr⟩, hequal⟩ := legible hreach hL
  have hread : some r = some L.report :=
    hr.read.symm.trans (orderly_of_reachable hreach hL).legible_report.read
  rw [← Option.some.inj hread] at hblocks
  exact ⟨hreach, hreach', L, L', r, hL, hL', hconfig, (hequal back "other" L' hreach' hL').1 hdump, hr,
    hblocks⟩

end PluginHost.World
