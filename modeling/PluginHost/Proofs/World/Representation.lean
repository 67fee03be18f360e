import PluginHost.Proofs.Loader.Representation
import PluginHost.Proofs.World.Listing
import PluginHost.Proofs.World.Loaders

/-!
# The representation of every loader

The loaders of a world that actions lead to are represented as they should be, and no sequence of
operations changes that: neither those that fail, nor those that meet other files or another memory than
the loader has seen so far.

* `World.represented`: so it is for every loader, before and after all operations.
-/

namespace PluginHost.World

set_option autoImplicit false

open Loader (Operation)

/-- A loader of a reachable world, and what any operations make of it under any hosts, has canonical
names in its index and the libraries of its index in its table; so the library of a plugin is listed. -/
theorem represented {w : World} (hw : Reachable w) {loader : String} {L : Loader}
    (hL : w.loaders.find? loader = some L) (operations : List (Host × Operation)) :
    (L.after operations).Represented ∧
      (L.after operations).libraries.Distinct ∧ (L.after operations).index.Distinct ∧
      ∀ plugin path, (L.after operations).libraryOf plugin = some path →
        ∃ l ∈ (L.after operations).listed, (l.path == path) = true := by
  have hload : ∀ (L : Loader) h p, L.Represented ∧ L.Consistent →
      (L.load h p).2.1.Represented ∧ (L.load h p).2.1.Consistent := by
    intro L h p hboth
    refine ⟨?_, hboth.2.load h p⟩
    rw [Loader.load_loader]
    exact hboth.1.tryLoad h p
  have hboth : L.Represented ∧ L.Consistent :=
    loader_of_reachable (P := fun L => L.Represented ∧ L.Consistent)
      (fun config => ⟨Loader.represented_withConfig config, Loader.consistent_withConfig config⟩) hload
      (fun L key hboth => ⟨hboth.1.remove key, hboth.2.remove key⟩) hw hL
  have hrep := Loader.represented_after hboth.1 operations
  have hc := Loader.consistent_after hboth.2 operations
  exact ⟨hrep, hc.libraries, hc.index, fun _ _ hpath => hrep.exists_listed hpath⟩

/-- The file of a library whose plugins were left out by a reload cannot be loaded any more. -/
def failing : List (Host × Operation) :=
  [(Host.start (.withDirectory ["w"]), .load ⟨"/w/a.so"⟩)]

/-- A plugin whose library was replaced is known by a path that is listed for another library. -/
theorem represented_of_replaced : Reachable replaced ∧
    ∃ L, replaced.loaders.find? "first" = some L ∧ (L.after failing).Represented ∧
      (L.after failing).libraryOf leftOut = some ⟨"/w/a.so"⟩ ∧
      ∃ l ∈ (L.after failing).listed, (l.path == ⟨"/w/a.so"⟩) = true ∧ l.provides leftOut = false := by
  have hreach : Reachable replaced := (Reachable.start _).run _
  have hanswers : (replaced.loaders.find? "first").map
      (fun L => ((L.after failing).libraryOf leftOut, (L.after failing).providers leftOut)) =
      some (some ⟨"/w/a.so"⟩, [(⟨"/w/a.so"⟩, false)]) := by decide +kernel
  obtain ⟨L, hL, hboth⟩ := Option.map_eq_some_iff.1 hanswers
  obtain ⟨hpath, hproviders⟩ := Prod.mk.inj hboth
  obtain ⟨hrep, -, -, hlisted⟩ := represented hreach hL failing
  obtain ⟨l, hl, hsame⟩ := hlisted leftOut ⟨"/w/a.so"⟩ hpath
  refine ⟨hreach, L, hL, hrep, hpath, l, hl, hsame, ?_⟩
  have hmem : (l.path, l.provides leftOut) ∈ (L.after failing).providers leftOut :=
    List.mem_map.2 ⟨l, hl, rfl⟩
  rw [hproviders, List.mem_singleton] at hmem
  exact (Prod.mk.inj hmem).2

end PluginHost.World
