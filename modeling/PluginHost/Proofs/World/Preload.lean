import PluginHost.Proofs.Loader.Mirrors
import PluginHost.Proofs.Loader.Query
import PluginHost.Proofs.World.Loads
import PluginHost.Proofs.World.Lookup
import PluginHost.Proofs.World.Reload

/-!
# Loading what is configured

A loader loads its configured libraries one after the other, and none of them gets in the way of another: an
entry of which nothing comes might as well not be there. What was known stays known. As long as no file is
changed under what is in memory, the same once more changes nothing, whatever names the libraries share.

* `World.Preloads`: the configured libraries as loads in a row.
* `World.Unchanged`: worlds in which the files stay as they are.
* `World.Repeats`: the configured libraries once more.
* `World.preloaded`: so it is in every reachable world, and in those whose files stay.
-/

namespace PluginHost.World

set_option autoImplicit false

open PluginHost.Table

/-! ## Loads in a row -/

/-- The plugins that a loader knows. -/
def known (w : World) (loader : String) : List String :=
  ((w.loaders.find? loader).map Loader.plugins).getD []

/-- What it is to load the configured libraries of a loader, when they are at these paths. -/
structure Preloads (w : World) (loader : String) (paths : List Path) : Prop where
  /-- It has the effect of loading each of them in turn. -/
  sequence : w.after (.loadConfigured loader) = w.run (paths.map (.load loader))
  /-- The answer is the union of the answers to these loads, in order. -/
  union : ∃ names, (w.perform (.loadConfigured loader)).1 = .names names ∧ names.Pairwise (· < ·) ∧
    ∀ n, n ∈ names ↔ ∃ answer, .names answer ∈ w.answers (paths.map (.load loader)) ∧ n ∈ answer
  gained : ∀ names, (w.perform (.loadConfigured loader)).1 = .names names →
    ∀ n ∈ names, n ∈ (w.after (.loadConfigured loader)).known loader
  kept : ∀ n ∈ w.known loader, n ∈ (w.after (.loadConfigured loader)).known loader
  /-- An entry that answers no names at its turn, because it cannot be used or because nothing of it is let in,
  leaves the loader as it is. The others answer as they do without it, and the loader lists the same in the
  end. -/
  spared : ∀ before p rest, paths = before ++ p :: rest →
    let turn := w.run (before.map (.load loader))
    (turn.perform (.load loader p)).1 = .names [] →
      (turn.after (.load loader p)).loaders.find? loader = turn.loaders.find? loader ∧
      (turn.after (.load loader p)).answers (rest.map (.load loader)) =
        turn.answers (rest.map (.load loader)) ∧
      ((w.after (.loadConfigured loader)).loaders.find? loader).map Loader.outline =
        ((w.run ((before ++ rest).map (.load loader))).loaders.find? loader).map Loader.outline

variable {w : World} {loader : String} {L : Loader} {n : String}

theorem mem_known_iff (hw : Reachable w) (hL : w.loaders.find? loader = some L) :
    n ∈ w.known loader ↔ ∃ e, L.outline.index.find? n = some e := by
  have hs := (sound_of_reachable (fun _ => False) hw).loaderAt hL
  have hseen : L.outline.index.find? n = (L.index.find? n).map fun e => (e.info, e.library.path) := by
    simp only [Loader.outline, find?_mapValues]
  rw [known, hL, Option.map_some, Option.getD_some,
    (represented_of_reachable hw hL).mem_plugins_iff hs.index, hseen]
  cases L.index.find? n <;> simp

/-- A load that answers no names makes no difference for the loads that follow. -/
theorem spared_of_barren (hw : Reachable w) (hL : w.loaders.find? loader = some L) {p : Path}
    (hnone : (w.perform (.load loader p)).1 = .names []) (rest : List Path) :
    (w.after (.load loader p)).loaders.find? loader = some L ∧
      (w.after (.load loader p)).answers (rest.map (.load loader)) = w.answers (rest.map (.load loader)) ∧
      (((w.after (.load loader p)).run (rest.map (.load loader))).loaders.find? loader).map Loader.outline =
        ((w.run (rest.map (.load loader))).loaders.find? loader).map Loader.outline := by
  have hs := (sound_of_reachable (fun _ => False) hw).loaderAt hL
  rw [after, perform_load hL] at *
  have hbarren : Loader.Barren (L.tryLoad w.host p).1 := by
    intro names hok
    have hanswer : (L.load w.host p).1 = names := by rw [Loader.load_of_ok hok]
    rw [← hanswer]
    exact Answer.names.inj hnone
  obtain ⟨-, hstays, -⟩ := Loader.restored_load hs.host.balanced hbarren
  obtain ⟨σ, -, hmirrors⟩ := Loader.mirrors_of_barren hs (unambiguous_of_reachable hw) hbarren
  obtain ⟨hanswers, hlast⟩ := hmirrors.loadAll rest
  have hafter := (w.find?_become loader (L.load w.host p).2).trans (congrArg some hstays)
  refine ⟨hafter, ?_, ?_⟩
  · rw [answers_loads hafter, answers_loads hL]
    exact congrArg _ hanswers
  · rw [run_loads hafter, run_loads hL, find?_become, find?_become]
    exact congrArg some hlast.outline

theorem preloads_of_reachable (hw : Reachable w) (hL : w.loaders.find? loader = some L) :
    w.Preloads loader L.config.preload := by
  have hsequence := after_loadConfigured hL
  have hafter : (w.after (.loadConfigured loader)).loaders.find? loader =
      some (L.loadAll w.host L.config.preload).2.1 := by
    rw [after, perform_loadConfigured hL, find?_become]
  have hanswer : (w.perform (.loadConfigured loader)).1 =
      .names (Ordered.ofList (L.answersOf w.host L.config.preload).flatten) := by
    rw [perform_loadConfigured hL, Loader.loadAll_fst]
  have hw' := hw.step (.loadConfigured loader)
  refine ⟨hsequence, ⟨_, hanswer, Ordered.sorted_ofList _, fun n => ?_⟩, ?_, ?_, ?_⟩
  · rw [answers_loads hL]
    simp
  · intro names hnames n hn
    rw [hanswer, Answer.names.injEq] at hnames
    rw [← hnames, Ordered.mem_ofList, List.mem_flatten] at hn
    obtain ⟨answer, hmem, hn⟩ := hn
    exact (mem_known_iff hw' hafter).2 (Loader.known_of_answersOf hmem hn)
  · intro n hn
    obtain ⟨e, he⟩ := (mem_known_iff hw hL).1 hn
    obtain ⟨e', he', -⟩ := (L.precedes_loadAll w.host L.config.preload).known n e he
    exact (mem_known_iff hw' hafter).2 ⟨e', he'⟩
  · intro before p rest hpaths turn hnone
    have hturn : turn.loaders.find? loader = some (L.loadAll w.host before).2.1 := by
      simp only [turn, run_loads hL, find?_become]
    obtain ⟨hstays, hanswers, houtline⟩ := spared_of_barren (hw.run _) hturn hnone rest
    refine ⟨hstays.trans hturn.symm, hanswers, ?_⟩
    rw [hsequence, hpaths, List.map_append, List.map_append, run_append, run_append]
    exact houtline

/-! ## The same once more -/

/-- Files are changed only while nothing is in memory. -/
inductive Unchanged : World → Prop where
  | start {files : FileTree} (hfiles : files.Coherent) : Unchanged (World.start files)
  | change {w : World} (change : FileChange) (hnone : w.host.mappings = []) :
    Unchanged w → Unchanged (w.after (.changeFiles change))
  | step {w : World} {a : Action} (ha : ∀ change, a ≠ .changeFiles change) :
    Unchanged w → Unchanged (w.after a)

/-- The files of a world stay as they are when they are laid out before anything else is done. -/
theorem unchanged_run {files : FileTree} (hfiles : files.Coherent) (changes : List FileChange)
    {actions : List Action} (ha : ∀ a ∈ actions, ∀ change, a ≠ .changeFiles change) :
    Unchanged ((start files).run (changes.map .changeFiles ++ actions)) := by
  have hlaid : ∀ {w : World}, Unchanged w → w.host.mappings = [] →
      Unchanged (w.run (changes.map .changeFiles)) := by
    induction changes with
    | nil => exact fun hw _ => hw
    | cons change rest ih => exact fun hw hnone => ih (hw.change change hnone) hnone
  have hdone : ∀ {w : World}, Unchanged w → Unchanged (w.run actions) := by
    induction actions with
    | nil => exact id
    | cons a rest ih =>
      obtain ⟨hfirst, hrest⟩ := List.forall_mem_cons.1 ha
      exact fun hw => ih hrest (hw.step hfirst)
  rw [run_append]
  exact hdone (hlaid (.start hfiles) rfl)

theorem Unchanged.reachable (hw : Unchanged w) : Reachable w := by
  induction hw with
  | start hfiles => exact .start _
  | change change _ _ ih => exact ih.step _
  | step ha _ ih => exact ih.step _

/-- What is in memory is what the files hold. -/
theorem Unchanged.faithful (hw : Unchanged w) : w.host.Faithful ∧ w.host.files.Coherent := by
  induction hw with
  | start hfiles => exact ⟨Host.faithful_start _, hfiles⟩
  | @change w change hnone _ ih =>
    have hgone : ∀ id m, w.host.mappings.find? id ≠ some m := fun id m hm => by simp [hnone] at hm
    have hs := ih.1.separate
    exact ⟨⟨⟨hs.distinct, hs.below, hs.apart⟩, fun id m hm => absurd hm (hgone id m),
      fun id m _ hm _ => absurd hm (hgone id m)⟩, ih.2.apply change⟩
  | @step w a ha _ ih =>
    have he := w.evolves_after ha
    exact ⟨ih.1.evolves ih.2 he, he.files.symm ▸ ih.2⟩

/-- Loading the configured libraries once more answers the same and leaves the loader as it lists things: the
plugins with their interfaces and the paths of their libraries, and the libraries with their plugins. -/
structure Repeats (w : World) (loader : String) : Prop where
  answer : ((w.after (.loadConfigured loader)).perform (.loadConfigured loader)).1 =
    (w.perform (.loadConfigured loader)).1
  outline : (((w.after (.loadConfigured loader)).after (.loadConfigured loader)).loaders.find? loader).map
      Loader.outline = ((w.after (.loadConfigured loader)).loaders.find? loader).map Loader.outline

theorem repeats_of_unchanged (hw : Unchanged w) (hL : w.loaders.find? loader = some L) :
    w.Repeats loader := by
  have hs := (sound_of_reachable (fun _ => False) hw.reachable).loaderAt hL
  obtain ⟨hf, hc⟩ := hw.faithful
  obtain ⟨hnames, houtline⟩ := Loader.loadAll_again hf hc hs.index hs.libraries L.config.preload
  let first := L.loadAll w.host L.config.preload
  have hfirst : w.after (.loadConfigured loader) = w.become loader first.2 := by
    rw [after, perform_loadConfigured hL]
  have hafter := w.find?_become loader first.2
  have hhost : (w.become loader first.2).host = first.2.2 := rfl
  have hconfig : first.2.1.config = L.config :=
    Loader.loadAll_induction (motive := fun L' _ => L'.config = L.config) L.config.preload rfl
      fun L' h' p hsame => by rw [L'.load_loader, L'.config_tryLoad, hsame]
  constructor
  · rw [hfirst, perform_loadConfigured hafter, perform_loadConfigured hL, hhost, hconfig, hnames]
  · rw [hfirst, after, perform_loadConfigured hafter, find?_become, hafter, hhost, hconfig]
    exact congrArg some houtline

/-- In every reachable world, and for all configured libraries, loading them is loading one after the other,
and each load is spared the failures of the others. While no file is changed, the same once more answers the
same and changes nothing that the loader lists. -/
theorem preloaded (hw : Reachable w) (hL : w.loaders.find? loader = some L) :
    w.Preloads loader L.config.preload ∧ (Unchanged w → w.Repeats loader) :=
  ⟨preloads_of_reachable hw hL, fun hunchanged => repeats_of_unchanged hunchanged hL⟩

/-- What two loaders are to load, one of which rejects duplicates: a library, a file that is not there, the
library again, a file that is no library, and another library with one of the names. -/
def configured : List Path := [⟨"/w/a.so"⟩, ⟨"/w/gone.so"⟩, ⟨"/w/./a.so"⟩, ⟨"/w/text.so"⟩, ⟨"/w/b.so"⟩]

def overlapping : World :=
  (start (.withDirectory ["w"])).run
    ([FileChange.write ⟨"/w/a.so"⟩ (.library (Image.ofRegistered "a" "shapes"
          [⟨"Square", [Catalog.nameBase], .named "Square"⟩, ⟨"Tag", [Catalog.tick], .named "Tag"⟩])),
        .write ⟨"/w/b.so"⟩ (.library (Image.ofRegistered "b" "shapes"
          [⟨"Square", [Catalog.intBase], .named "Other"⟩])),
        .write ⟨"/w/text.so"⟩ (.octets [])].map .changeFiles ++
      [.newLoader "first" (.values none (some configured) none) ⟨[]⟩,
        .newLoader "second" (.values (some "reject") (some configured) none) ⟨[]⟩])

theorem preloaded_of_overlapping : Reachable overlapping ∧ Unchanged overlapping ∧
    overlapping.Preloads "first" configured ∧ overlapping.Repeats "first" ∧
    overlapping.Preloads "second" configured ∧ overlapping.Repeats "second" ∧
    (overlapping.loadConfigured "first").1 = some ["::shapes::Square", "::shapes::Tag"] ∧
    (overlapping.loadConfigured "second").1 = some ["::shapes::Square", "::shapes::Tag"] ∧
    (overlapping.perform (.load "first" ⟨"/w/gone.so"⟩)).1 = .names [] := by
  have hunchanged : Unchanged overlapping :=
    unchanged_run (FileTree.coherent_withDirectory ["w"]) _ (by simp)
  have hreach : Reachable overlapping := hunchanged.reachable
  have hloads : ∀ loader ∈ ["first", "second"], ∃ L, overlapping.loaders.find? loader = some L ∧
      L.config.preload = configured := by
    have hconfigs : ∀ loader ∈ ["first", "second"],
        (overlapping.loaders.find? loader).map (fun L => L.config.preload) = some configured := by
      decide +kernel
    intro loader hloader
    exact Option.map_eq_some_iff.1 (hconfigs loader hloader)
  obtain ⟨L, hL, hpaths⟩ := hloads "first" (by simp)
  obtain ⟨L', hL', hpaths'⟩ := hloads "second" (by simp)
  obtain ⟨hpreloads, hrepeats⟩ := preloaded hreach hL
  obtain ⟨hpreloads', hrepeats'⟩ := preloaded hreach hL'
  rw [hpaths] at hpreloads
  rw [hpaths'] at hpreloads'
  have hgone : (overlapping.load "first" ⟨"/w/gone.so"⟩).1 = some [] := by decide +kernel
  refine ⟨hreach, hunchanged, hpreloads, hrepeats hunchanged, hpreloads', hrepeats' hunchanged,
    by decide +kernel, by decide +kernel, ?_⟩
  simp only [perform, Answer.ofOption, hgone]

/-- A file was replaced twice while the one before was in memory under one of its spellings. -/
def disturbed : World :=
  (start (.withDirectory ["w"])).run
    [.changeFiles (.write ⟨"/w/a.so"⟩ (.library (Image.ofRegistered "a" "shapes"
        [⟨"Square", [Catalog.nameBase], .named "First"⟩]))),
      .newLoader "first" (.values none (some [⟨"/w/a.so"⟩, ⟨"/w/./a.so"⟩]) none) ⟨[]⟩,
      .newLoader "second" .standard ⟨[]⟩,
      .load "first" ⟨"/w/a.so"⟩,
      .changeFiles (.write ⟨"/w/a.so"⟩ (.library (Image.ofRegistered "b" "shapes"
        [⟨"Square", [Catalog.nameBase], .named "Second"⟩]))),
      .load "second" ⟨"/w/./a.so"⟩,
      .changeFiles (.write ⟨"/w/a.so"⟩ (.library (Image.ofRegistered "c" "shapes"
        [⟨"Tag", [Catalog.tick], .named "Third"⟩])))]

-- the first file leaves memory when its plugin is registered anew, and then its path leads to the third
example : (disturbed.loadConfigured "first").1 = some ["::shapes::Square"] ∧
    ((disturbed.loadConfigured "first").2.loadConfigured "first").1 =
      some ["::shapes::Square", "::shapes::Tag"] := by decide +kernel

end PluginHost.World
