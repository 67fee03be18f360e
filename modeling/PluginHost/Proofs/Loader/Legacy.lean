import PluginHost.Proofs.Image.Legacy
import PluginHost.Proofs.Loader.Delivery
import PluginHost.Proofs.Loader.Reload

/-!
# Loading libraries of older versions

A fresh loader that loads a library with one legacy descriptor knows one plugin afterwards, or it refuses the
library and knows nothing.

* `Loader.Introduces`: what the loader knows and lists.
* `Loader.tryLoad_of_givesOut`: the two outcomes.
-/

namespace PluginHost

set_option autoImplicit false

namespace Loader

variable {shape : LegacyShape} {d : LegacyDescriptor} {info : PluginInfo}

/-! ## What is introduced -/

/-- The loader knows one plugin and lists one library, which was registered with it. -/
structure Introduces (L : Loader) (d : LegacyDescriptor) (info : PluginInfo) (l : Library) : Prop where
  index : L.index = [(info.name, ⟨info, l⟩)]
  plugins : L.plugins = [info.name]
  interfaces : L.interfacesImplemented = d.interfaceKey.toList
  listed : L.listed = [l]
  registered : l.plugins = [info.name]

theorem introduces_registered (config : Config) (h : d.plugin? = some info) (id : Nat) (key : Path)
    (o : Origin) : ((withConfig config).registered (record id key o [info]) [info]).Introduces d info
      (record id key o [info]) where
  index := rfl
  plugins := rfl
  interfaces := by
    have hnames : ((withConfig config).registered (record id key o [info]) [info]).interfacesImplemented =
        Ordered.ofList (info.interfaceNames ++ []) := rfl
    rw [hnames, List.append_nil, LegacyDescriptor.interfaceNames_of_plugin h]
    cases d.interfaceKey <;> rfl
  listed := List.mergeSort_singleton _
  registered := rfl

/-- A fresh loader refuses a library without a usable descriptor, and registers the one plugin of any
other. -/
theorem outcome_of_givesOut (config : Config) (id : Nat) (key : Path) (o : Origin) {e : Exports}
    (h : e.GivesOut shape d) : (withConfig config).outcome id key o e =
      match d.plugin? with
      | none => (.error .noDescriptors, withConfig config)
      | some info => (.ok [info.name], (withConfig config).registered (record id key o [info]) [info]) := by
  rw [outcome, h.negotiate_snd, ← d.map_normalized_ofLegacy]
  cases (PluginInfo.ofLegacy d).2 with
  | none => rfl
  | some info =>
    simp only [accepted_withConfig, List.map_cons, List.map_nil, List.isEmpty_cons, Bool.false_eq_true,
      if_false, Option.map_some]
    rfl

/-! ## Loads -/

variable {h : Host} {p : Path} {id : Nat} {m : Mapping}

theorem tryLoad_of_givesOut (config : Config) (hexists : h.files.exists? p = true)
    (hp : h.locate p = some (id, m)) (hgives : m.image.exports.GivesOut shape d) :
    (d.plugin? = none ∧ ((withConfig config).tryLoad h p).1 = .error (.abi p .noDescriptors) ∧
        ((withConfig config).tryLoad h p).2.1 = withConfig config) ∨
      ∃ info l, d.plugin? = some info ∧ ((withConfig config).tryLoad h p).1 = .ok [info.name] ∧
        ((withConfig config).tryLoad h p).2.1.Introduces d info l ∧ l.origin = m.origin id := by
  obtain ⟨hanswer, hloader⟩ := (withConfig config).tryLoad_outcome hexists
  simp only [hp, Option.map_some, Host.code, outcome_of_givesOut config _ _ _ hgives] at hanswer hloader
  rw [hanswer, hloader]
  cases hplugin : d.plugin? with
  | none => exact .inl ⟨rfl, rfl, rfl⟩
  | some info => exact .inr ⟨info, _, rfl, rfl, introduces_registered config hplugin _ _ _, rfl⟩

/-- The mapping that a path leads to has its image when the load is done, if it is still there. -/
theorem image_after_tryLoad (L : Loader) (hs : h.Separate) (hexists : h.files.exists? p = true)
    (hp : h.locate p = some (id, m)) {v : Mapping} (hv : (L.tryLoad h p).2.2.mappings.find? id = some v) :
    v.image = m.image := by
  have hopening : (h.note (.opening p)).Separate := hs.moves (.aside rfl rfl (Nat.le_refl _))
  have hp' : (h.note (.opening p)).locate p = some (id, m) := hp
  have hheld : ((h.note (.opening p)).hold id m).mappings.find? id = some { m with holds := m.holds + 1 } :=
    Table.find?_put_self _ _ _
  exact ((evolves_tryLoad_of_locate L hexists hp).kept (hopening.hold hp') hheld hv).1

end Loader

end PluginHost
