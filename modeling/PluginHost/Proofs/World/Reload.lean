import PluginHost.Proofs.Loader.Reload
import PluginHost.Proofs.World.Evolution
import PluginHost.Proofs.World.Registration

/-!
# Loading a library again and again

A program that loads a path over and over gets the answer of the first time each time, and nothing piles up:
the index, the table and the holds on mappings are those after the first load.

* `World.Steady`: a loader and the holds are the same in two worlds, apart from identities.
* `World.steady_after_tryLoad`: one more load.
* `World.steady_run`: any number of them.
-/

namespace PluginHost.World

set_option autoImplicit false

open PluginHost.Table

/-! ## What stays -/

/-- The loader lists the same in both worlds: the plugins with their interfaces and the paths of their
libraries, and the libraries with their plugins and live counts. Every mapping has the same holds. -/
structure Steady (w w' : World) (loader : String) : Prop where
  outline : (w'.loaders.find? loader).map Loader.outline = (w.loaders.find? loader).map Loader.outline
  census : ((w'.loaders.find? loader).map fun L => L.census w'.host) =
    (w.loaders.find? loader).map fun L => L.census w.host
  holds : ∀ id, w'.host.mappings.counter Mapping.holds id = w.host.mappings.counter Mapping.holds id

theorem Steady.refl (w : World) (loader : String) : w.Steady w loader := ⟨rfl, rfl, fun _ => rfl⟩

theorem Steady.trans {w w' w'' : World} {loader : String} (first : w.Steady w' loader)
    (second : w'.Steady w'' loader) : w.Steady w'' loader where
  outline := second.outline.trans first.outline
  census := second.census.trans first.census
  holds := fun id => (second.holds id).trans (first.holds id)

/-! ## Loading again -/

variable {w : World} {loader : String} {p : Path} {names : List String}

theorem steady_after_tryLoad (hw : Reachable w)
    (hok : (w.perform (.tryLoad loader p)).1 = .loaded (.ok names)) :
    let first := w.after (.tryLoad loader p)
    (first.perform (.tryLoad loader p)).1 = .loaded (.ok names) ∧
      first.Steady (first.after (.tryLoad loader p)) loader := by
  intro first
  obtain ⟨L, hL, hanswer⟩ := exists_of_tryLoad hok
  have hs := (sound_of_reachable (fun _ => False) hw).loaderAt hL
  obtain ⟨hagain, houtline, hcensus, hholds⟩ :=
    Loader.tryLoad_again hs (unambiguous_of_reachable hw) hanswer
  have hfirst : first.loaders.find? loader = some (L.tryLoad w.host p).2.1 := find?_after_tryLoad hL p
  have hhost : first.host = (L.tryLoad w.host p).2.2 := host_after_tryLoad hL p
  have hhost' : (first.after (.tryLoad loader p)).host =
      ((L.tryLoad w.host p).2.1.tryLoad (L.tryLoad w.host p).2.2 p).2.2 := by
    rw [host_after_tryLoad hfirst, hhost]
  have hsecond := find?_after_tryLoad hfirst p
  rw [hhost] at hsecond
  refine ⟨?_, ?_, ?_, ?_⟩
  · rw [perform_tryLoad hfirst, hhost, hagain]
  · rw [hsecond, hfirst, Option.map_some, Option.map_some, houtline]
  · rw [hsecond, hfirst, hhost, hhost', Option.map_some, Option.map_some, hcensus]
  · rw [hhost, hhost']
    exact hholds

/-- In every reachable world, when a load succeeds, the same load succeeds with the same names any number of
times, and what the loader lists and every hold is after the last time as after the first. -/
theorem steady_run (hw : Reachable w)
    (hok : (w.perform (.tryLoad loader p)).1 = .loaded (.ok names)) (n : Nat) :
    let first := w.after (.tryLoad loader p)
    let last := first.run (List.replicate n (.tryLoad loader p))
    (last.perform (.tryLoad loader p)).1 = .loaded (.ok names) ∧ first.Steady last loader := by
  induction n generalizing w with
  | zero => exact ⟨(steady_after_tryLoad hw hok).1, .refl _ loader⟩
  | succ n ih =>
    obtain ⟨hagain, hsteady⟩ := steady_after_tryLoad hw hok
    obtain ⟨hlast, hrest⟩ := ih (hw.step (.tryLoad loader p)) hagain
    exact ⟨hlast, hsteady.trans hrest⟩

/-- A loader that rejects duplicates knows a file that was replaced while an instance of it lives, and another
file takes one of the names of the new one. -/
def succeeded : World :=
  (start (.withDirectory ["w"])).run
    [.changeFiles (.write ⟨"/w/a.so"⟩ (.library (Image.ofRegistered "a" "shapes"
        [⟨"Square", [Catalog.nameBase], .named "Square"⟩]))),
      .changeFiles (.write ⟨"/w/b.so"⟩ (.library (Image.ofRegistered "b" "shapes"
        [⟨"Tag", [Catalog.nameBase], .named "Tag"⟩]))),
      .newLoader "first" (.values (some "reject") none none) ⟨[]⟩,
      .load "first" ⟨"/w/a.so"⟩,
      .load "first" ⟨"/w/b.so"⟩,
      .instantiate "first" "shapes::Square" "h" none,
      .changeFiles (.write ⟨"/w/a.so"⟩ (.library (Image.ofRegistered "c" "shapes"
        [⟨"Square", [Catalog.intBase], .named "Square"⟩, ⟨"Tag", [Catalog.tick], .named "Taken"⟩])))]

theorem steady_of_succeeded : Reachable succeeded ∧
    let first := succeeded.after (.tryLoad "first" ⟨"/w/./a.so"⟩)
    let last := first.run (List.replicate 3 (.tryLoad "first" ⟨"/w/./a.so"⟩))
    (last.perform (.tryLoad "first" ⟨"/w/./a.so"⟩)).1 = .loaded (.ok ["::shapes::Square"]) ∧
      first.Steady last "first" ∧ last.host.resident = ["/w/a.so", "/w/b.so", "/w/./a.so"] := by
  have hreach : Reachable succeeded := (Reachable.start _).run _
  have hanswer : (succeeded.tryLoad "first" ⟨"/w/./a.so"⟩).1 = some (.ok ["::shapes::Square"]) := by
    decide +kernel
  have hloaded : (succeeded.perform (.tryLoad "first" ⟨"/w/./a.so"⟩)).1 =
      .loaded (.ok ["::shapes::Square"]) := by
    simp only [perform, Answer.ofOption, hanswer]
  obtain ⟨hlast, hsteady⟩ := steady_run hreach hloaded 3
  exact ⟨hreach, hlast, hsteady, by decide +kernel⟩

end PluginHost.World
