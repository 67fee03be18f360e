import PluginHost.Proofs.Loader.Exclusive
import PluginHost.Proofs.World.Loaders
import PluginHost.Proofs.World.Soundness

/-!
# Names under the rejecting policy

A loader that rejects duplicates never lets a library take a name from another path or share it. A name
changes its owner only after the loader was made to forget the owner, or was itself replaced.

* `World.Undisturbed`: a run in which a loader stays and does not forget a key.
* `World.Exclusive`: what loading does to names that are taken, and who owns what is listed.
* `World.exclusive`: so it is for every loader of a reachable world that rejects duplicates.
-/

namespace PluginHost.World

set_option autoImplicit false

open PluginHost.Table

/-! ## Owners -/

/-- In no action of the run is the loader replaced, and in none does it forget the key. -/
def Undisturbed (loader : String) (key : Path) : World → List Action → Prop
  | _, [] => True
  | w, a :: rest =>
    ¬ w.Replaces a loader ∧ (∀ k, w.Forgets a loader k → ¬ (k == key) = true) ∧
      Undisturbed loader key (w.after a) rest

section Owners

variable {w : World} {loader n : String} {L : Loader} {e : IndexEntry} {key : Path}

theorem owning_of_reachable (hw : Reachable w) (hL : w.loaders.find? loader = some L)
    (hreject : L.config.duplicatePolicy = .reject) : L.Owning := by
  have hboth : L.Consistent ∧ (L.config.duplicatePolicy = .reject → L.Owning) := by
    refine loader_of_reachable
      (P := fun L => L.Consistent ∧ (L.config.duplicatePolicy = .reject → L.Owning))
      (fun config => ?_) (fun L h p hL => ?_) (fun L key hL => ?_) hw hL
    · exact ⟨Loader.consistent_withConfig config, fun _ => Loader.owning_withConfig config⟩
    · obtain ⟨hc, ho⟩ := hL
      refine ⟨hc.load h p, fun hreject => ?_⟩
      rw [Loader.load_loader] at hreject ⊢
      rw [Loader.config_tryLoad] at hreject
      exact Loader.owning_tryLoad hc hreject (ho hreject) h p
    · obtain ⟨hc, ho⟩ := hL
      exact ⟨hc.remove key, fun hreject => Loader.owning_remove hc (ho hreject) key⟩
  exact hboth.2 hreject

/-- In one action a name keeps its owner, unless the loader is replaced or forgets the owner. -/
theorem owner_after (hw : Reachable w) (hL : w.loaders.find? loader = some L)
    (hreject : L.config.duplicatePolicy = .reject) (he : L.index.find? n = some e)
    (hown : (e.library.path == key) = true) {a : Action} (hstays : ¬ w.Replaces a loader)
    (hforgets : ∀ k, w.Forgets a loader k → ¬ (k == key) = true) :
    ∃ L' e', (w.after a).loaders.find? loader = some L' ∧
      L'.config.duplicatePolicy = .reject ∧ L'.index.find? n = some e' ∧
      (e'.library.path == key) = true := by
  cases w.loader_after a loader with
  | same h => exact ⟨L, e, h.trans hL, hreject, he, hown⟩
  | replaced hr _ => exact absurd hr hstays
  | @loaded _ paths hL₀ _ h =>
    rw [hL, Option.some.injEq] at hL₀
    subst hL₀
    have hkept := Loader.loadAll_induction
      (motive := fun L _ => L.config.duplicatePolicy = .reject ∧
        ∃ e', L.index.find? n = some e' ∧ (e'.library.path == key) = true)
      paths ⟨hreject, e, he, hown⟩ (L := L) (h := w.host) ?_
    · obtain ⟨hreject', e', he', hown'⟩ := hkept
      exact ⟨_, e', h, hreject', he', hown'⟩
    · rintro L h p ⟨hreject, e, he, hown⟩
      obtain ⟨e', he', hsame⟩ := Loader.owner_tryLoad hreject h p he
      rw [Loader.load_loader, Loader.config_tryLoad]
      exact ⟨hreject, e', he', BEq.trans hsame hown⟩
  | @forgot _ k hL₀ hf h =>
    rw [hL, Option.some.injEq] at hL₀
    subst hL₀
    have hc := (sound_of_reachable (fun _ => False) hw).consistent loader L hL
    refine ⟨_, e, h, hreject, ((hc.without_remove k).index n e).2 ⟨he, fun hkey => ?_⟩, hown⟩
    exact hforgets k hf (BEq.trans (BEq.symm hkey) hown)

theorem owner_run (hw : Reachable w) (hL : w.loaders.find? loader = some L)
    (hreject : L.config.duplicatePolicy = .reject) (he : L.index.find? n = some e)
    (hown : (e.library.path == key) = true) {actions : List Action}
    (hu : Undisturbed loader key w actions) :
    ∃ L' e', (w.run actions).loaders.find? loader = some L' ∧ L'.index.find? n = some e' ∧
      (e'.library.path == key) = true := by
  induction actions generalizing w L e with
  | nil => exact ⟨L, e, hL, he, hown⟩
  | cons a rest ih =>
    obtain ⟨hstays, hforgets, hrest⟩ := hu
    obtain ⟨L', e', hL', hreject', he', hown'⟩ :=
      owner_after hw hL hreject he hown hstays hforgets
    exact ih (hw.step a) hL' hreject' he' hown' hrest

end Owners

/-! ## Taken names -/

/-- What a loader that rejects duplicates does about names that are taken. -/
structure Exclusive (w : World) (loader : String) (L : Loader) : Prop where
  /-- Loading leaves a name alone that belongs to another path, and does not answer it. -/
  load : ∀ p n e, L.index.find? n = some e →
    ¬ (e.library.path == Loader.libraryKey w.host.files p) = true →
    (L.tryLoad w.host p).2.1.index.find? n = some e ∧
      ∀ names, (L.tryLoad w.host p).1 = .ok names → n ∉ names
  /-- So does loading several paths, one after the other. -/
  loadAll : ∀ paths n e, L.index.find? n = some e →
    (∀ p ∈ paths, ¬ (e.library.path == Loader.libraryKey w.host.files p) = true) →
    (L.loadAll w.host paths).2.1.index.find? n = some e ∧ n ∉ (L.loadAll w.host paths).1
  /-- Every name of a listed library is known with that very library. -/
  owned : ∀ l ∈ L.listed, ∀ n ∈ l.plugins, ∃ e, L.index.find? n = some e ∧ e.library = l
  /-- Two listed libraries share no name. -/
  disjoint : ∀ l ∈ L.listed, ∀ l' ∈ L.listed, l ≠ l' → ∀ n ∈ l.plugins, n ∉ l'.plugins
  /-- A name keeps its owner in every run that does not disturb it. -/
  kept : ∀ actions n e, L.index.find? n = some e →
    Undisturbed loader e.library.path w actions →
    ∃ L' e', (w.run actions).loaders.find? loader = some L' ∧ L'.index.find? n = some e' ∧
      (e'.library.path == e.library.path) = true
  /-- A name is free once its owner was forgotten. -/
  freed : ∀ a n e key, L.index.find? n = some e → w.Forgets a loader key →
    (e.library.path == key) = true →
    ∃ L', (w.after a).loaders.find? loader = some L' ∧ L'.index.find? n = none

theorem exclusive {w : World} (hw : Reachable w) {loader : String} {L : Loader}
    (hL : w.loaders.find? loader = some L) (hreject : L.config.duplicatePolicy = .reject) :
    Exclusive w loader L := by
  have hc := (sound_of_reachable (fun _ => False) hw).consistent loader L hL
  have ho := owning_of_reachable hw hL hreject
  constructor
  case load => exact fun p n e he hother => Loader.index_tryLoad_of_other hreject he hother
  case loadAll => exact fun paths n e he hother => Loader.index_loadAll_of_other hreject he hother
  case owned => exact fun l hl n hn => ho l.path l n (hc.mem_listed.1 hl) hn
  case disjoint =>
    intro l hl l' hl' hne n hn hn'
    exact hne (ho.eq_of_mem (hc.mem_listed.1 hl) (hc.mem_listed.1 hl') hn hn')
  case kept => exact fun actions n e he hu => owner_run hw hL hreject he BEq.rfl hu
  case freed =>
    intro a n e key he hf hown
    exact ⟨_, find?_after_of_forgets hf hL, (hc.without_remove key).index_eq_none he hown⟩

/-- A loader that rejects duplicates loads a library, and then another that has one plugin of the same
name and one of its own. -/
def contested : World :=
  (start (.withDirectory ["w"])).run
    [.changeFiles (.write ⟨"/w/a.so"⟩ (.library Image.dummyPlugins)),
      .changeFiles (.write ⟨"/w/b.so"⟩ (.library (Image.ofRegistered "b" "dynaplug_dummy_plugins"
        [⟨"DummySinglePlugin", [Catalog.nameBase], .named "Taken"⟩,
          ⟨"Other", [Catalog.nameBase], .named "Other"⟩]))),
      .newLoader "first" (.values (some "reject") none none) ⟨[]⟩,
      .load "first" ⟨"/w/a.so"⟩,
      .load "first" ⟨"/w/b.so"⟩]

theorem exclusive_of_contested : Reachable contested ∧
    ∃ L, contested.loaders.find? "first" = some L ∧ L.config.duplicatePolicy = .reject ∧
      L.libraries.values.map (fun l => (l.path.text, l.plugins)) =
        [("/w/a.so", ["::dynaplug_dummy_plugins::DummyMultiPlugin",
            "::dynaplug_dummy_plugins::DummySinglePlugin"]),
          ("/w/b.so", ["::dynaplug_dummy_plugins::Other"])] ∧
      Exclusive contested "first" L := by
  have hreach : Reachable contested := (Reachable.start _).run _
  have hanswers : (contested.loaders.find? "first").map (fun L =>
      (L.config.duplicatePolicy, L.libraries.values.map fun l => (l.path.text, l.plugins))) =
      some (.reject, [("/w/a.so", ["::dynaplug_dummy_plugins::DummyMultiPlugin",
          "::dynaplug_dummy_plugins::DummySinglePlugin"]),
        ("/w/b.so", ["::dynaplug_dummy_plugins::Other"])]) := by decide +kernel
  obtain ⟨L, hL, hboth⟩ := Option.map_eq_some_iff.1 hanswers
  obtain ⟨hreject, hlisted⟩ := Prod.mk.inj hboth
  exact ⟨hreach, L, hL, hreject, hlisted, exclusive hreach hL hreject⟩

end PluginHost.World
