import PluginHost.Proofs.Loader.Registration
import PluginHost.Proofs.World.Soundness

/-!
# What a load does to the index

In every reachable world, whatever a loader knows and whatever its policy is, the registration of an opened
library names the plugins that are let in, and records a library for them if there are any.

* `World.perform_tryLoad`: a load as what the loader does.
* `World.registers_of_reachable`: every registration, and with it every load that succeeds.
-/

namespace PluginHost

set_option autoImplicit false

open PluginHost.Table

/-- What is said in the end belongs to no registration. -/
theorem Loader.Registers.note {L L' : Loader} {h h' : Host} {key : Path} {infos : List PluginInfo}
    {names : List String} (hr : L.Registers h key infos names L' h') (n : Notice) :
    L.Registers h key infos names L' (h'.note n) where
  named := hr.named
  ordered := hr.ordered
  barren := fun hnone => ⟨(hr.barren hnone).1, (hr.barren hnone).2.reads (h'.reads_note n)⟩
  recorded := by
    intro hsome
    obtain ⟨l, hl⟩ := hr.recorded hsome
    exact ⟨l, { hl with record := hl.record }⟩
  fresh := hr.fresh

namespace World

variable {w : World} {loader : String} {L : Loader} {p : Path}

theorem perform_tryLoad (hL : w.loaders.find? loader = some L) (p : Path) :
    w.perform (.tryLoad loader p) = (.loaded (L.tryLoad w.host p).1,
      { w with
        host := (L.tryLoad w.host p).2.2
        loaders := w.loaders.put loader (L.tryLoad w.host p).2.1 }) := by
  simp only [perform, Answer.ofOption, tryLoad, onLoader, hL]

theorem find?_after_tryLoad (hL : w.loaders.find? loader = some L) (p : Path) :
    (w.after (.tryLoad loader p)).loaders.find? loader = some (L.tryLoad w.host p).2.1 := by
  rw [after, perform_tryLoad hL]
  exact find?_put_self _ _ _

theorem host_after_tryLoad (hL : w.loaders.find? loader = some L) (p : Path) :
    (w.after (.tryLoad loader p)).host = (L.tryLoad w.host p).2.2 := by
  rw [after, perform_tryLoad hL]

/-- Only a loader that is there loads. -/
theorem exists_of_tryLoad {answer : Except LoadError (List String)}
    (h : (w.perform (.tryLoad loader p)).1 = .loaded answer) :
    ∃ L, w.loaders.find? loader = some L ∧ (L.tryLoad w.host p).1 = answer := by
  cases hL : w.loaders.find? loader with
  | none => simp [perform, Answer.ofOption, tryLoad, onLoader, hL] at h
  | some L =>
    rw [perform_tryLoad hL] at h
    exact ⟨L, rfl, Answer.loaded.inj h⟩

/-- In every reachable world it is a registration when a loader registers the plugins of a library that it
opened, whatever the key and the plugins are, and every load that succeeds is such a registration. -/
theorem registers_of_reachable (hw : Reachable w) (hL : w.loaders.find? loader = some L) :
    (∀ p id m probes key infos, w.host.locate p = some (id, m) →
      let done := L.register (w.host.probed p id m probes) key (m.origin id) infos
      L.Registers w.host key infos done.1 done.2.1 done.2.2) ∧
    ∀ p names, (w.perform (.tryLoad loader p)).1 = .loaded (.ok names) →
      ∃ id m n L', w.host.locate p = some (id, m) ∧ (negotiate m.image.exports).2 = .ok n ∧
        (w.after (.tryLoad loader p)).loaders.find? loader = some L' ∧
        L.Registers w.host (Loader.libraryKey w.host.files p) n.infos names L'
          (w.after (.tryLoad loader p)).host := by
  have hs := (sound_of_reachable (fun _ => False) hw).loaderAt hL
  refine ⟨fun p id m probes key infos hp => Loader.registers_of_sound hs hp probes key infos, ?_⟩
  intro p names hnames
  obtain ⟨L₀, hL₀, hok⟩ := exists_of_tryLoad hnames
  obtain rfl : L₀ = L := Option.some.inj (hL₀.symm.trans hL)
  obtain ⟨id, m, n, probes, hp, hn, heq⟩ := Loader.tryLoad_eq_register hok
  have hdone := Loader.registers_of_sound hs hp probes (Loader.libraryKey w.host.files p) n.infos
  refine ⟨id, m, n, _, hp, hn, find?_after_tryLoad hL p, ?_⟩
  rw [heq] at hok
  rw [after, perform_tryLoad hL, heq, ← Except.ok.inj hok]
  exact hdone.note _

/-- A loader that rejects duplicates is to load a library of which it knows one plugin from another file,
and which exports two plugins whose names only blanks keep apart. -/
def crowded : World :=
  (start (.withDirectory ["w"])).run
    [.changeFiles (.write ⟨"/w/a.so"⟩ (.library (Image.ofRegistered "a" "shapes"
        [⟨"Square", [Catalog.nameBase], .named "Square"⟩]))),
      .changeFiles (.write ⟨"/w/b.so"⟩ (.library (Image.ofRegistered "b" "shapes"
        [⟨"Tag", [Catalog.nameBase], .named "First"⟩, ⟨"Square", [Catalog.tick], .named "Taken"⟩,
          ⟨" Tag", [Catalog.intBase], .named "Last"⟩]))),
      .newLoader "first" (.values (some "reject") none none) ⟨[]⟩,
      .load "first" ⟨"/w/a.so"⟩]

theorem registers_of_crowded : Reachable crowded ∧
    (crowded.perform (.tryLoad "first" ⟨"/w/b.so"⟩)).1 = .loaded (.ok ["::shapes::Tag"]) ∧
    ∃ L L' n l, crowded.loaders.find? "first" = some L ∧
      (crowded.after (.tryLoad "first" ⟨"/w/b.so"⟩)).loaders.find? "first" = some L' ∧
      L.Recorded crowded.host (Loader.libraryKey crowded.host.files ⟨"/w/b.so"⟩) n
        ["::shapes::Tag"] L' (crowded.after (.tryLoad "first" ⟨"/w/b.so"⟩)).host l ∧
      L'.interfacesImplemented =
        ["::dynaplug_testing::interfaces::IntBase", "::dynaplug_testing::interfaces::NameBase"] := by
  have hreach : Reachable crowded := (Reachable.start _).run _
  have hknown : (crowded.loaders.find? "first").isSome = true := by decide +kernel
  have hafter : ((crowded.after (.tryLoad "first" ⟨"/w/b.so"⟩)).loaders.find? "first").map
      Loader.interfacesImplemented = some
        ["::dynaplug_testing::interfaces::IntBase", "::dynaplug_testing::interfaces::NameBase"] := by
    decide +kernel
  have hanswer : (crowded.tryLoad "first" ⟨"/w/b.so"⟩).1 = some (.ok ["::shapes::Tag"]) := by
    decide +kernel
  have hloaded : (crowded.perform (.tryLoad "first" ⟨"/w/b.so"⟩)).1 = .loaded (.ok ["::shapes::Tag"]) := by
    simp only [perform, Answer.ofOption, hanswer]
  obtain ⟨L, hL⟩ := Option.isSome_iff_exists.1 hknown
  obtain ⟨-, hloads⟩ := registers_of_reachable hreach hL
  obtain ⟨id, m, n, L', -, -, hL', hregisters⟩ := hloads ⟨"/w/b.so"⟩ _ hloaded
  obtain ⟨l, hl⟩ := hregisters.recorded (by simp)
  rw [hL', Option.map_some, Option.some.injEq] at hafter
  exact ⟨hreach, hloaded, L, L', n.infos, l, hL, hL', hl, hafter⟩

end World

end PluginHost
