import PluginHost.Proofs.Loader.Spelling
import PluginHost.Proofs.World.Evolution

/-!
# Spellings of one file

A path and its canonical path lead to one file and stand for one key. They load alike as long as both are
opened by way of the file. A path without a slash is not, since opening searches for it elsewhere, where it is
assumed not to be found; and a path whose text is known for a mapping leads to that mapping, also when its file
has been replaced since.

* `World.Spelled`: what loading a path does, compared with its canonical path.
* `World.spelled`: so it is for every path, in every world that actions lead to.
-/

namespace PluginHost.World

set_option autoImplicit false

/-- What loading a path does, when its canonical path is `k`. -/
structure Spelled (w : World) (L : Loader) (p k : Path) : Prop where
  /-- The canonical path is its own canonical path, so both stand for one key. -/
  canonical : w.host.files.canonical? k = some k
  /-- Opened by way of the file, they load alike. -/
  alike : p.hasSlash = true → ¬ w.host.Stale p → ¬ w.host.Stale k → L.Interchangeable w.host p k
  /-- A path without a slash cannot be opened, also when there is a file of that name. This rests on what
  `Host.locate` assumes: the search for such a path, in the directories of the system and among the names that
  libraries in memory bear in themselves, finds nothing. -/
  bare : p.hasSlash = false →
    (L.tryLoad w.host p).1 = .error (.cannotOpen p) ∧ (L.tryLoad w.host p).2.1 = L
  /-- A path whose text is known loads the image it is known for, under the key of the file. -/
  known : ∀ id m, p.hasSlash = true → w.host.knownAs p.text = some (id, m) →
    let done := L.outcome w.host.fresh k ⟨id, m.image.id, m.image.reports⟩ m.image.exports
    (L.tryLoad w.host p).1 = done.1.mapError (.abi p) ∧ (L.tryLoad w.host p).2.1 = done.2

theorem spelled {files : FileTree} (hfiles : files.WellFormed) (actions : List Action) {w : World}
    (hw : w = (start files).run actions) {p k : Path} (hk : w.host.files.canonical? p = some k)
    (L : Loader) : Spelled w L p k := by
  have hform : w.host.files.WellFormed := hw ▸ wellFormed_run hfiles actions
  have hseparate : w.host.Separate := hw ▸ separate_run (Host.separate_start files) actions
  have hcanonical := hform.canonical_canonical hk
  have hkey : Loader.libraryKey w.host.files p = k := by rw [Loader.libraryKey, hk]; rfl
  have hkey' : Loader.libraryKey w.host.files k = k := by rw [Loader.libraryKey, hcanonical]; rfl
  have hexists := FileTree.exists_of_canonical hk
  obtain ⟨hanswer, hloader⟩ := L.tryLoad_outcome hexists
  constructor
  case canonical => exact hcanonical
  case alike =>
    intro hslash hp hstale
    have hslash' : k.hasSlash = true := by
      obtain ⟨location, -, -, rfl, -⟩ := FileTree.canonical_cases hk
      exact Path.hasSlash_absolute location
    refine L.interchangeable_of_code hexists (FileTree.exists_of_canonical hcanonical) ?_ ?_
    · rw [hkey, hkey']
    · rw [Host.code_locate hseparate hslash' hstale, Host.code_locate hseparate hslash hp,
        hform.file_canonical hk]
  case bare =>
    intro hslash
    have hnone : w.host.locate p = none := by simp [Host.locate, hslash]
    rw [hanswer, hloader, hnone]
    exact ⟨rfl, rfl⟩
  case known =>
    intro id m hslash hknown
    have hlocate : w.host.locate p = some (id, m) := by simp [Host.locate, hslash, hknown]
    have hlt := hseparate.below.lt (hseparate.find?_of_knownAs hknown)
    have hfresh : max w.host.fresh (id + 1) = w.host.fresh := Nat.max_eq_left hlt
    rw [hanswer, hloader, hlocate, hkey]
    simp only [Option.map_some, Host.code, hfresh, and_self]

/-- A library file, a link to it, and a loader that has loaded nothing. -/
def linked : World :=
  (start (.withDirectory ["w"])).run
    [.changeFiles (.write ⟨"/w/a.so"⟩ (.library Image.dummyPlugins)),
      .changeFiles (.makeLink ⟨"/w/b.so"⟩ ⟨"a.so"⟩),
      .newLoader "first" .standard ⟨[]⟩]

/-- A way to the file through the link is as good as its canonical path, and the name of the file alone is
not. -/
theorem spelled_of_linked : (FileTree.withDirectory ["w"]).WellFormed ∧
    ∃ L, linked.loaders.find? "first" = some L ∧
      Spelled linked L ⟨"../w/./b.so"⟩ ⟨"/w/a.so"⟩ ∧
      L.Interchangeable linked.host ⟨"../w/./b.so"⟩ ⟨"/w/a.so"⟩ ∧
      Spelled linked L ⟨"a.so"⟩ ⟨"/w/a.so"⟩ ∧
      (L.tryLoad linked.host ⟨"a.so"⟩).1 = .error (.cannotOpen ⟨"a.so"⟩) := by
  have hfiles : (FileTree.withDirectory ["w"]).WellFormed :=
    FileTree.wellFormed_withDirectory (by decide)
  have hloader : (linked.loaders.find? "first").isSome = true := by decide +kernel
  have hway : linked.host.files.canonical? ⟨"../w/./b.so"⟩ = some ⟨"/w/a.so"⟩ := by decide +kernel
  have hname : linked.host.files.canonical? ⟨"a.so"⟩ = some ⟨"/w/a.so"⟩ := by decide +kernel
  have hunknown : ∀ text, linked.host.knownAs text = none := fun _ => rfl
  have hfresh : ∀ p, ¬ linked.host.Stale p := by
    rintro p ⟨id, m, hknown, -⟩
    rw [hunknown] at hknown
    simp at hknown
  obtain ⟨L, hL⟩ := Option.isSome_iff_exists.1 hloader
  have hspelled := spelled hfiles _ rfl hway L
  have hbare := spelled hfiles _ rfl hname L
  exact ⟨hfiles, L, hL, hspelled, hspelled.alike (by decide) (hfresh _) (hfresh _), hbare,
    (hbare.bare (by decide)).1⟩

end PluginHost.World
