import PluginHost.Proofs.Loader.Delivery
import PluginHost.World.Action

/-!
# From declarations to handles

A library is built from declarations, loaded by a fresh loader, and handles are made for its plugins. At
the end of this way stands what was declared at its beginning: no plugin and no interface is lost, and none
is added.

* `World.Delivered`: what a loader answers and what its handles provide, for some declarations.
* `World.delivered`: it is so after a fresh loader loaded a library that declares them.
-/

namespace PluginHost

set_option autoImplicit false

open PluginHost.Table

namespace World

/-! ## What is delivered -/

/-- The loader lists the declared plugins and interfaces, and every handle that is made for a plugin, in any
spelling and in any world with the loader as it is, provides the interfaces that the plugin lists. -/
structure Delivered (w : World) (loader : String) (plugins : List Declaration) : Prop where
  listed : ∃ L, w.loaders.find? loader = some L ∧
    L.plugins = Ordered.ofList (plugins.map Declaration.key) ∧
    L.interfacesImplemented = Ordered.ofList (plugins.flatMap fun d => d.interfaces.map Interface.key) ∧
    ∀ i, L.implementing i = Ordered.ofList ((plugins.filter fun d => d.lists i).map Declaration.key)
  handles : ∀ v : World, v.loaders.find? loader = w.loaders.find? loader →
    ∀ d ∈ plugins, ∀ plugin goal candidates, Name.normalize plugin = d.key →
      ∃ holder x, (v.after (.instantiate loader plugin goal candidates)).handles.find? goal = some holder ∧
        holder.handle.held = some x ∧ x.info.name = d.key ∧
        ∀ s, (holder.handle.find? s).isSome = d.lists s

variable {w : World} {loader : String} {plugins : List Declaration}

/-- What is kept under the name is the handle that the loader made, whatever its form. -/
theorem find?_handles_instantiate {L : Loader} (hL : w.loaders.find? loader = some L)
    (plugin goal : String) (candidates : Option Candidates) :
    ∃ holder, (w.after (.instantiate loader plugin goal candidates)).handles.find? goal = some holder ∧
      holder.handle = (L.instantiate w.host plugin).1 := by
  simp only [after, perform, Answer.ofOption, instantiate, hL, keep, find?_put_self]
  refine ⟨_, rfl, ?_⟩
  cases candidates with
  | none => rfl
  | some c => rfl

theorem delivered_of_knows {L : Loader} (hL : w.loaders.find? loader = some L) (h : L.Knows plugins) :
    w.Delivered loader plugins where
  listed := ⟨L, hL, h.plugins_eq, h.interfacesImplemented_eq, h.implementing_eq⟩
  handles := by
    intro v hv d hd plugin goal candidates hplugin
    obtain ⟨holder, hholder, hhandle⟩ :=
      find?_handles_instantiate (hv.trans hL) plugin goal candidates
    obtain ⟨x, hx, hreflects⟩ := h.instantiate v.host hd hplugin
    refine ⟨holder, x, hholder, by rw [hhandle, hx], hreflects.name, fun s => ?_⟩
    rw [Handle.find?, hhandle, hx]
    exact Instance.isSome_find?_of_reflects hreflects s

/-! ## Loading into a fresh loader -/

/-- When a fresh loader opens a path and finds a library that declares plugins, with names that are not
empty and of which no two have the same canonical spelling, it answers these names, and the plugins are
delivered. -/
theorem delivered {config : Config} {p : Path} {id : Nat} {m : Mapping}
    (hfresh : w.loaders.find? loader = some (.withConfig config)) (hfile : w.host.files.exists? p = true)
    (hopen : w.host.locate p = some (id, m)) (hdeclares : m.image.Declares plugins)
    (hsome : plugins ≠ []) (hnamed : ∀ d ∈ plugins, d.Named)
    (hkeys : (plugins.map Declaration.key).Nodup) :
    (w.perform (.tryLoad loader p)).1 =
        .loaded (.ok (Ordered.ofList (plugins.map Declaration.key))) ∧
      (w.after (.tryLoad loader p)).Delivered loader plugins ∧
      (w.perform (.load loader p)).1 = .names (Ordered.ofList (plugins.map Declaration.key)) ∧
      (w.after (.load loader p)).Delivered loader plugins := by
  obtain ⟨hanswer, hloader⟩ := (Loader.withConfig config).tryLoad_outcome hfile
  simp only [hopen, Option.map_some, Host.code] at hanswer hloader
  obtain ⟨hnames, hknows⟩ := Loader.outcome_withConfig config (max w.host.fresh (id + 1))
    (Loader.libraryKey w.host.files p) ⟨id, m.image.id, m.image.reports⟩ hdeclares hsome hnamed hkeys
  have hanswer' : ((Loader.withConfig config).tryLoad w.host p).1 =
      .ok (Ordered.ofList (plugins.map Declaration.key)) := by
    rw [hanswer, hnames]
    rfl
  have hknows' : ((Loader.withConfig config).tryLoad w.host p).2.1.Knows plugins := hloader ▸ hknows
  refine ⟨?_, delivered_of_knows ?_ hknows', ?_, delivered_of_knows ?_ hknows'⟩
  · simp only [perform, Answer.ofOption, tryLoad, onLoader, hfresh, hanswer']
  · simp only [after, perform, Answer.ofOption, tryLoad, onLoader, hfresh, find?_put_self]
  · have hload : ((Loader.withConfig config).load w.host p).1 =
        Ordered.ofList (plugins.map Declaration.key) := by
      unfold Loader.load
      split
      · next heq =>
        rw [heq] at hanswer'
        exact Except.ok.inj hanswer'
      · next heq =>
        rw [heq] at hanswer'
        exact absurd hanswer' (by simp)
    simp only [perform, Answer.ofOption, load, onLoader, hfresh, hload]
  · simp only [after, perform, Answer.ofOption, load, onLoader, hfresh, find?_put_self,
      Loader.load_loader]

/-- Two plugins, of which the second lists one name in two spellings. -/
def shapes : List Export.Registered :=
  [⟨"Square", [Catalog.nameBase, Catalog.intBase], .named "Square"⟩,
    ⟨"Tag", [⟨"Label", "shapes :: Label"⟩, ⟨"Mark", "::shapes::Label"⟩], .named "Tag"⟩]

/-- A library with these plugins stands in a directory, and a loader was made. -/
def supplied : World :=
  (start (.withDirectory ["w"])).run
    [.changeFiles (.write ⟨"/w/a.so"⟩ (.library (Image.ofRegistered "a" "shapes" shapes))),
      .newLoader "first" .standard ⟨[]⟩]

theorem delivered_of_supplied :
    (supplied.perform (.tryLoad "first" ⟨"/w/a.so"⟩)).1 =
        .loaded (.ok ["::shapes::Square", "::shapes::Tag"]) ∧
      (supplied.after (.load "first" ⟨"/w/a.so"⟩)).Delivered "first"
        (shapes.map fun r => ⟨r.name "shapes", r.interfaces⟩) := by
  have hfresh : supplied.loaders.find? "first" = some (.withConfig Config.standard) := by rfl
  have hcode : (supplied.host.locate ⟨"/w/a.so"⟩).map Host.code =
      some (1, Image.ofRegistered "a" "shapes" shapes) := by
    decide +kernel
  obtain ⟨⟨id, m⟩, hopen, hfound⟩ := Option.map_eq_some_iff.1 hcode
  have hdeclares : m.image.Declares (shapes.map fun r => ⟨r.name "shapes", r.interfaces⟩) := by
    rw [(Prod.mk.inj hfound).2]
    exact Image.declares_ofRegistered "a" "shapes" shapes
  have hnamed : ∀ d ∈ shapes.map fun r => (⟨r.name "shapes", r.interfaces⟩ : Declaration), d.Named := by
    intro d hd
    have hnames : ∀ d ∈ shapes.map fun r => (⟨r.name "shapes", r.interfaces⟩ : Declaration),
        d.name ≠ "" ∧ ∀ i ∈ d.interfaces, i.name ≠ "" := by decide +kernel
    exact ⟨(hnames d hd).1, (hnames d hd).2⟩
  obtain ⟨hanswer, -, -, hdelivered⟩ := delivered hfresh (by decide +kernel) hopen hdeclares (by decide)
    hnamed (by decide +kernel)
  refine ⟨hanswer.trans ?_, hdelivered⟩
  have hkeys : Ordered.ofList ((shapes.map fun r =>
      (⟨r.name "shapes", r.interfaces⟩ : Declaration)).map Declaration.key) =
        ["::shapes::Square", "::shapes::Tag"] := by
    decide +kernel
  rw [hkeys]

end World

end PluginHost
