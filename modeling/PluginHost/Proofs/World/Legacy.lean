import PluginHost.Proofs.Loader.Legacy
import PluginHost.Proofs.World.Intact
import PluginHost.Proofs.World.Parting
import PluginHost.Proofs.World.Reload
import PluginHost.Proofs.World.Transparency

/-!
# Libraries of older versions behave alike

A legacy descriptor says everything about a plugin, whichever of the two older versions the library is of. A
loader reads the same plugin from both, every instance of it provides itself for its one interface, and its
end gives back the library without a call.

* `World.Serves`: what an instance provides, and what giving it back does.
* `World.Introduces`: what a fresh loader makes of a library.
* `World.uniform`: both follow from the descriptor alone.
-/

namespace PluginHost.World

set_option autoImplicit false

open PluginHost.Table PluginHost.Journal

/-- The instance provides what the descriptor says. With its last holder it is gone: it is not deleted, and
its library is given back. -/
structure Serves (w : World) (d : LegacyDescriptor) (x : Instance) : Prop where
  info : d.plugin? = some x.info
  find : ∀ name, x.find? name = d.place x.id name
  handles : ∀ name y, w.handles.find? name = some y → y.handle.held = some x →
    (∀ s, (w.perform (.find name s)).1 = .place (d.place x.id s)) ∧
      ∀ i, (y.query w.host i).1 = d.place x.id i.name
  /-- Whatever the action is, parting with the instance is the last thing that it does. -/
  parted : ∀ a, ¬ (w.after a).Lives x → deletions (w.eventsOf a) x.id = 0 ∧
    ∃ g, w.host.Gains g ∧ (w.after a).host = g.release x ∧ g.Parts (w.after a).host x
  /-- If it only gives the holder back, it is the only thing. -/
  released : ∀ a, w.Releases x a → w.host.uses x = 1 → ¬ (w.after a).Lives x ∧
    w.host.Parts (w.after a).host x ∧ ∀ o c, .call o c ∉ w.eventsOf a
  /-- The library is kept exactly as long as something else refers to it. -/
  library : ∀ a, x.library ∈ (w.after a).host.libraries ↔ (w.after a).Refers x.library

/-- A fresh loader that opens a library with the descriptor, in the mapping `id`, refuses it and stays fresh,
or it knows one plugin, and whatever is done then, the instances of the library serve. -/
def Introduces (w : World) (d : LegacyDescriptor) (loader : String) (config : Config) (p : Path) (id : Nat) :
    Prop :=
  let v := w.after (.tryLoad loader p)
  (d.plugin? = none ∧ (w.perform (.tryLoad loader p)).1 = .loaded (.error (.abi p .noDescriptors)) ∧
      v.loaders.find? loader = some (.withConfig config) ∧
      (w.perform (.load loader p)).1 = .names []) ∨
    ∃ info L l, d.plugin? = some info ∧
      (w.perform (.tryLoad loader p)).1 = .loaded (.ok [info.name]) ∧
      w.perform (.load loader p) = (.names [info.name], v) ∧
      v.loaders.find? loader = some L ∧ L.Introduces d info l ∧ l.origin.mapping = id ∧
      ∀ actions x, (v.run actions).Lives x → x.library = l → (v.run actions).Serves d x

/-- What libraries that give out the descriptor have in common, whatever their version is. -/
structure Uniform (w : World) (d : LegacyDescriptor) : Prop where
  usable : d.plugin?.isSome = true ↔
    (∃ b bytes, d.name = some (b :: bytes)) ∧ ∃ factory, d.factory = some factory
  negotiated : ∀ (e e' : Exports) shape shape', e.GivesOut shape d → e'.GivesOut shape' d →
    (d.plugin? = none ∧ (negotiate e).2 = .error .noDescriptors ∧
        (negotiate e').2 = .error .noDescriptors) ∨
      ∃ info, d.plugin? = some info.normalized ∧ (negotiate e).2 = .ok ⟨shape.version, [info]⟩ ∧
        (negotiate e').2 = .ok ⟨shape'.version, [info]⟩
  loaded : ∀ loader config p id m shape, w.loaders.find? loader = some (.withConfig config) →
    w.host.files.exists? p = true → w.host.locate p = some (id, m) →
      m.image.exports.GivesOut shape d → w.Introduces d loader config p id
  served : ∀ x m shape, w.Lives x → w.host.mappings.find? x.library.origin.mapping = some m →
    m.image.exports.GivesOut shape d → w.Serves d x

variable {w : World} {d : LegacyDescriptor} {shape : LegacyShape} {m : Mapping}

theorem serves_of_givesOut (hw : Reachable w) {x : Instance} (hx : w.Lives x)
    (hm : w.host.mappings.find? x.library.origin.mapping = some m)
    (hgives : m.image.exports.GivesOut shape d) : w.Serves d x := by
  have hs := sound_of_reachable (fun _ => True) hw
  have ⟨v, hv, hbody⟩ := hx
  have hinfo : d.plugin? = some x.info := by
    obtain ⟨m', hm', hoffers⟩ := hs.host.chronicled.backed x.id v hv
    rw [hbody] at hm' hoffers
    obtain rfl : m = m' := Option.some.inj (hm.symm.trans hm')
    exact hgives.plugin_of_offers hoffers
  have hfind : ∀ name, x.find? name = d.place x.id name := LegacyDescriptor.find?_of_plugin hinfo
  have hleak := (LegacyDescriptor.eq_of_plugin hinfo).2
  constructor
  case info => exact hinfo
  case find => exact hfind
  case handles =>
    intro name y hy hheld
    have hhandle : ∀ s, y.handle.find? s = d.place x.id s := fun s => by
      rw [Handle.find?, hheld, Option.bind_some, hfind]
    constructor
    · intro s
      simp only [perform, Answer.ofOption, World.find, onHandle, hy, Handle.query_fst, hhandle]
    · intro i
      rw [(bound_of_reachable hw name y hy).query_fst, hhandle]
  case parted =>
    intro a hgone
    obtain ⟨g, hgains, hhost, hparts⟩ := exists_parting hw hx hgone hleak
    refine ⟨?_, g, hgains, hhost, hhost ▸ hparts⟩
    have hstep : Sound (w.Bears a) w.host (w.after a) 0 :=
      (sound_of_reachable (w.Bears a) hw).restart.after a fun _ h => h
    rw [deletions_of_held hs hstep (hs.lives_iff.1 hx)]
    simp [hleak]
  case released =>
    intro a ha hlast
    have hparts := parts_of_releases hw ha hlast hleak
    refine ⟨?_, hparts, hparts.silent.not_mem_eventsSince⟩
    rintro ⟨v', hv', -⟩
    rw [hparts.gone] at hv'
    cases hv'
  case library =>
    exact fun a => (sound_of_reachable (fun _ => True) (hw.step a)).mem_libraries_iff_refers

/-- What was opened by a load serves in every world that follows. -/
theorem serves_of_run (hw : Reachable w) {loader : String} {L : Loader} {p : Path} {id : Nat} {l : Library}
    (hL : w.loaders.find? loader = some L) (hexists : w.host.files.exists? p = true)
    (hp : w.host.locate p = some (id, m)) (hgives : m.image.exports.GivesOut shape d)
    (hreferred : l ∈ (w.after (.tryLoad loader p)).references) (hhome : l.origin.mapping = id)
    (actions : List Action) {x : Instance}
    (hx : ((w.after (.tryLoad loader p)).run actions).Lives x) (hlib : x.library = l) :
    ((w.after (.tryLoad loader p)).run actions).Serves d x := by
  have hreach := hw.step (.tryLoad loader p)
  have hs := (sound_of_reachable (fun _ => True) hreach).restart
  have hrun := sound_run hs actions
  -- the mapping has the image that was opened: it had it after the load, and it keeps it
  obtain ⟨m₁, hm₁⟩ := hs.host.balanced.resident_of_referred hreferred
  have himage : m₁.image = m.image := by
    rw [Host.home, hhome, host_after_tryLoad hL] at hm₁
    exact Loader.image_after_tryLoad _ (unambiguous_of_reachable hw).separate hexists hp hm₁
  have hheld : x ∈ 0 + ((w.after (.tryLoad loader p)).run actions).held := by
    rw [zero_add]
    exact hrun.lives_iff.1 hx
  obtain ⟨m₂, hm₂⟩ := hrun.host.balanced.resident_of_held hheld
  have hhome₂ : Host.home x.library = Host.home l := congrArg Host.home hlib
  obtain ⟨m₀, hm₀, hkept⟩ := hrun.host.follows.mapped _ m₂
    (hhome₂ ▸ hs.host.balanced.mapping_lt_fresh hm₁) hm₂
  rw [hhome₂, hm₁, Option.some.injEq] at hm₀
  have hgives₂ : m₂.image.exports.GivesOut shape d := by
    rw [hkept, ← hm₀, himage]
    exact hgives
  exact serves_of_givesOut (hreach.run actions) hx hm₂ hgives₂

theorem introduces_of_givesOut (hw : Reachable w) {loader : String} {config : Config} {p : Path} {id : Nat}
    (hfresh : w.loaders.find? loader = some (.withConfig config)) (hexists : w.host.files.exists? p = true)
    (hp : w.host.locate p = some (id, m)) (hgives : m.image.exports.GivesOut shape d) :
    w.Introduces d loader config p id := by
  have hloader := find?_after_tryLoad hfresh p
  rw [Introduces, perform_tryLoad hfresh, hloader]
  rcases Loader.tryLoad_of_givesOut config hexists hp hgives with
    ⟨hnone, hanswer, hstays⟩ | ⟨info, l, hinfo, hanswer, hintroduces, horigin⟩
  · refine .inl ⟨hnone, congrArg Answer.loaded hanswer, congrArg some hstays, ?_⟩
    simp only [perform, Answer.ofOption, load, onLoader, hfresh, Loader.load_of_error hanswer]
  · have hhome : l.origin.mapping = id := by rw [horigin]; rfl
    have hload : w.perform (.load loader p) = (.names [info.name], w.after (.tryLoad loader p)) := by
      rw [after, perform_tryLoad hfresh]
      simp only [perform, Answer.ofOption, load, onLoader, hfresh, Loader.load_of_ok hanswer]
    have hreferred : l ∈ (w.after (.tryLoad loader p)).references := by
      refine mem_referencesOf hloader (Loader.mem_references_of_index (n := info.name) (e := ⟨info, l⟩) ?_)
      rw [hintroduces.index]
      simp [Table.find?]
    refine .inr ⟨info, _, l, hinfo, congrArg Answer.loaded hanswer, hload, rfl, hintroduces, hhome, ?_⟩
    exact fun actions _ => serves_of_run hw hfresh hexists hp hgives hreferred hhome actions

/-- In every reachable world libraries that give out one legacy descriptor are read alike, whichever of the
two older versions they are of. A fresh loader makes of either the one plugin of the descriptor, with at most
one interface, or refuses it, and every live instance of either serves. -/
theorem uniform (hw : Reachable w) (d : LegacyDescriptor) : Uniform w d where
  usable := LegacyDescriptor.isSome_plugin?_iff
  negotiated := fun _ _ _ _ h h' => h.negotiate_alike h'
  loaded := fun _ _ _ _ _ _ hfresh hexists hp hgives => introduces_of_givesOut hw hfresh hexists hp hgives
  served := fun _ _ _ hx hm hgives => serves_of_givesOut hw hx hm hgives

/-- What is given out by the two libraries below. -/
def relic : LegacyDescriptor where
  name := some (Text.Utf8.encode "legacy::Plugin")
  interface := some (Text.Utf8.encode Catalog.nameBase.name)
  factory := some ⟨Export.rowTag "old" 0, .capability Catalog.nameBase, .named "Plugin"⟩

/-- A library of version 1 and one of version 2 give out the same descriptor. One loader loaded the first and
was dropped when it had made an instance, and another is fresh. -/
def antique : World :=
  (start (.withDirectory ["w"])).run
    [.changeFiles (.write ⟨"/w/a.so"⟩
        (.library (Image.legacyPlugin "old" "legacy" "Plugin" LegacyShape.returns.version))),
      .changeFiles (.write ⟨"/w/b.so"⟩
        (.library (Image.legacyPlugin "old" "legacy" "Plugin" LegacyShape.fills.version))),
      .newLoader "first" .standard ⟨[]⟩,
      .newLoader "second" .standard ⟨[]⟩,
      .load "first" ⟨"/w/a.so"⟩,
      .instantiate "first" "legacy::Plugin" "h" none,
      .dropLoader "first"]

theorem uniform_of_antique : Reachable antique ∧ Uniform antique relic ∧
    antique.Introduces relic "second" Config.standard ⟨"/w/b.so"⟩ 4 ∧
    ∃ x, antique.Lives x ∧ antique.Serves relic x ∧
      ¬ (antique.after (.dropHandle "h")).Lives x ∧
      antique.host.Parts (antique.after (.dropHandle "h")).host x ∧
      antique.host.live x.library = 1 ∧ (antique.after (.dropHandle "h")).host.resident = [] := by
  have hreach : Reachable antique := (Reachable.start _).run _
  have huniform : Uniform antique relic := uniform hreach relic
  have hfresh : antique.loaders.find? "second" = some (.withConfig Config.standard) := by rfl
  have hcode : (antique.host.locate ⟨"/w/b.so"⟩).map Host.code =
      some (4, Image.legacyPlugin "old" "legacy" "Plugin" LegacyShape.fills.version) := by
    decide +kernel
  obtain ⟨⟨id, m⟩, hp, hfound⟩ := Option.map_eq_some_iff.1 hcode
  obtain ⟨rfl, himage⟩ := Prod.mk.inj hfound
  have hgives : m.image.exports.GivesOut .fills relic := by
    rw [himage]
    exact Image.givesOut_legacyPlugin "old" "legacy" "Plugin" .fills
  have hintroduces := huniform.loaded "second" Config.standard ⟨"/w/b.so"⟩ 4 m .fills hfresh
    (by decide +kernel) hp hgives
  have hheld : ((antique.handles.find? "h").bind fun y => y.handle.held).map (fun x =>
      (antique.host.uses x, antique.host.live x.library,
        (antique.host.mappings.find? x.library.origin.mapping).map Mapping.image)) =
        some (1, 1, some (Image.legacyPlugin "old" "legacy" "Plugin" LegacyShape.returns.version)) := by
    decide +kernel
  obtain ⟨x, hx, hcounts⟩ := Option.map_eq_some_iff.1 hheld
  obtain ⟨y, hy, hxy⟩ := Option.bind_eq_some_iff.1 hx
  simp only [Prod.mk.injEq] at hcounts
  obtain ⟨huses, hlive, hmapped⟩ := hcounts
  obtain ⟨m', hm', himage'⟩ := Option.map_eq_some_iff.1 hmapped
  have hreleases : antique.Releases x (.dropHandle "h") := ⟨y, hy, hxy⟩
  have hlives : antique.Lives x :=
    (sound_of_reachable (fun _ => True) hreach).lives_iff.2 (mem_held_of_releases hreleases)
  have hgives' : m'.image.exports.GivesOut .returns relic := by
    rw [himage']
    exact Image.givesOut_legacyPlugin "old" "legacy" "Plugin" .returns
  have hserves := huniform.served x m' .returns hlives hm' hgives'
  obtain ⟨hgone, hparts, -⟩ := hserves.released (.dropHandle "h") hreleases huses
  exact ⟨hreach, huniform, hintroduces, x, hlives, hserves, hgone, hparts, hlive, by decide +kernel⟩

end PluginHost.World
