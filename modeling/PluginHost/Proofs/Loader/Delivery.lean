import PluginHost.Loader.Query
import PluginHost.Proofs.Image.Declared
import PluginHost.Proofs.Loader.Index

/-!
# Delivered plugins

A fresh loader that loads a library knows the plugins that the library declares and no others, each by what
was declared of it.

* `Loader.Knows`: the index holds what reflects some declarations.
* `Loader.knows_registered`: registering what was read into a fresh loader.
* `Loader.outcome_withConfig`: what a fresh loader answers to a library that declares plugins.
* `Loader.Knows.plugins_eq`, `Loader.Knows.interfacesImplemented_eq`, `Loader.Knows.implementing_eq`: the
  names that such a loader gives.
-/

namespace PluginHost

set_option autoImplicit false

/-! ## Declarations with different names -/

theorem Declaration.eq_of_key_eq {plugins : List Declaration}
    (hkeys : (plugins.map Declaration.key).Nodup) {d d' : Declaration} (hd : d ∈ plugins)
    (hd' : d' ∈ plugins) (hkey : d.key = d'.key) : d = d' :=
  List.inj_on_of_nodup_map hkeys hd hd' hkey

theorem exists_reflected {infos : List PluginInfo} {plugins : List Declaration}
    (h : List.Forall₂ PluginInfo.Reflects infos plugins) {info : PluginInfo} (hinfo : info ∈ infos) :
    ∃ d ∈ plugins, info.Reflects d := by
  induction h with
  | nil => simp at hinfo
  | cons hfirst _ ih =>
    rcases List.mem_cons.1 hinfo with rfl | hinfo
    · exact ⟨_, List.mem_cons_self, hfirst⟩
    · obtain ⟨d, hd, hreflects⟩ := ih hinfo
      exact ⟨d, List.mem_cons_of_mem _ hd, hreflects⟩

theorem map_name_of_reflects {infos : List PluginInfo} {plugins : List Declaration}
    (h : List.Forall₂ PluginInfo.Reflects infos plugins) :
    infos.map PluginInfo.name = plugins.map Declaration.key := by
  induction h with
  | nil => rfl
  | cons hfirst _ ih => rw [List.map_cons, List.map_cons, hfirst.name, ih]

namespace Loader

/-! ## Knowing -/

/-- The index holds one entry for each declaration, which reflects it, and no other entry. -/
structure Knows (L : Loader) (plugins : List Declaration) : Prop where
  distinct : L.index.Distinct
  known : ∀ d ∈ plugins, ∃ e, L.index.find? d.key = some e ∧ e.info.Reflects d
  only : ∀ n e, L.index.find? n = some e → ∃ d ∈ plugins, e.info.Reflects d

variable {L : Loader} {plugins : List Declaration}

theorem knows_registered (config : Config) (library : Library) {infos : List PluginInfo}
    (h : List.Forall₂ PluginInfo.Reflects infos plugins) (hkeys : (plugins.map Declaration.key).Nodup) :
    ((withConfig config).registered library infos).Knows plugins := by
  have hentry : ∀ n e, ((withConfig config).registered library infos).index.find? n = some e →
      ∃ d ∈ plugins, d.key = n ∧ e.info.Reflects d := by
    intro n e he
    rcases find?_indexed he with ⟨hinfo, rfl, -⟩ | ⟨-, hold⟩
    · obtain ⟨d, hd, hreflects⟩ := exists_reflected h hinfo
      exact ⟨d, hd, hreflects.name.symm, hreflects⟩
    · simp [withConfig] at hold
  refine ⟨distinct_indexed Table.distinct_nil infos, fun d hd => ?_, fun n e he => ?_⟩
  · have hname : d.key ∈ infos.map PluginInfo.name := by
      rw [map_name_of_reflects h]
      exact List.mem_map_of_mem hd
    obtain ⟨e, he, -⟩ : ∃ e, (indexed library [] infos).find? d.key = some e ∧ e.library = library :=
      exists_find?_indexed (List.mem_map.1 hname) []
    -- whatever declaration the entry is from, only this one has the name
    obtain ⟨d', hd', hkey, hreflects⟩ := hentry d.key e he
    rw [Declaration.eq_of_key_eq hkeys hd' hd hkey] at hreflects
    exact ⟨e, he, hreflects⟩
  · obtain ⟨d, hd, -, hreflects⟩ := hentry n e he
    exact ⟨d, hd, hreflects⟩

/-- A loader that knows nothing accepts every plugin. -/
theorem accepted_withConfig (config : Config) (key : Path) (infos : List PluginInfo) :
    (withConfig config).accepted key infos = infos.map PluginInfo.normalized := by
  have haccepts : ∀ info : PluginInfo, (withConfig config).accepts key info = true := fun _ => rfl
  exact List.filter_eq_self.2 fun info _ => haccepts info

/-- A fresh loader answers the canonical names of what is declared, and knows it from then on. -/
theorem outcome_withConfig (config : Config) (id : Nat) (key : Path) (o : Origin) {image : Image}
    (h : image.Declares plugins) (hsome : plugins ≠ []) (hnamed : ∀ d ∈ plugins, d.Named)
    (hkeys : (plugins.map Declaration.key).Nodup) :
    ((withConfig config).outcome id key o image.exports).1 =
        .ok (Ordered.ofList (plugins.map Declaration.key)) ∧
      ((withConfig config).outcome id key o image.exports).2.Knows plugins := by
  obtain ⟨n, hn, hreflects⟩ := negotiate_of_declares h hsome hnamed
  have hinfos : (n.infos.map PluginInfo.normalized).isEmpty = false := by
    rw [List.isEmpty_eq_false_iff]
    intro hnil
    rw [hnil, List.forall₂_nil_left_iff] at hreflects
    exact hsome hreflects
  simp only [outcome, hn, accepted_withConfig, hinfos, Bool.false_eq_true, if_false]
  refine ⟨?_, knows_registered config _ hreflects hkeys⟩
  rw [record, map_name_of_reflects hreflects]

/-! ## What is answered -/

namespace Knows

theorem mem_infos (h : L.Knows plugins) {info : PluginInfo} (hinfo : info ∈ L.infos) :
    ∃ d ∈ plugins, info.Reflects d := by
  obtain ⟨e, he, rfl⟩ := List.mem_map.1 hinfo
  obtain ⟨n, hn⟩ := Table.exists_find?_of_mem_values h.distinct he
  exact h.only n e hn

theorem exists_info (h : L.Knows plugins) {d : Declaration} (hd : d ∈ plugins) :
    ∃ info ∈ L.infos, info.Reflects d := by
  obtain ⟨e, he, hreflects⟩ := h.known d hd
  exact ⟨e.info, List.mem_map_of_mem (Table.mem_values_of_find? he), hreflects⟩

theorem plugins_eq (h : L.Knows plugins) :
    L.plugins = Ordered.ofList (plugins.map Declaration.key) := by
  refine Ordered.ofList_congr fun n => ?_
  constructor
  · intro hn
    obtain ⟨info, hinfo, rfl⟩ := List.mem_map.1 hn
    obtain ⟨d, hd, hreflects⟩ := h.mem_infos hinfo
    exact List.mem_map.2 ⟨d, hd, hreflects.name.symm⟩
  · intro hn
    obtain ⟨d, hd, rfl⟩ := List.mem_map.1 hn
    obtain ⟨info, hinfo, hreflects⟩ := h.exists_info hd
    exact List.mem_map.2 ⟨info, hinfo, hreflects.name⟩

theorem interfacesImplemented_eq (h : L.Knows plugins) : L.interfacesImplemented =
    Ordered.ofList (plugins.flatMap fun d => d.interfaces.map Interface.key) := by
  refine Ordered.ofList_congr fun n => ?_
  constructor
  · intro hn
    obtain ⟨info, hinfo, hname⟩ := List.mem_flatMap.1 hn
    obtain ⟨d, hd, hreflects⟩ := h.mem_infos hinfo
    exact List.mem_flatMap.2 ⟨d, hd, (hreflects.interfaces n).1 hname⟩
  · intro hn
    obtain ⟨d, hd, hkey⟩ := List.mem_flatMap.1 hn
    obtain ⟨info, hinfo, hreflects⟩ := h.exists_info hd
    exact List.mem_flatMap.2 ⟨info, hinfo, (hreflects.interfaces n).2 hkey⟩

theorem implementing_eq (h : L.Knows plugins) (interface : String) : L.implementing interface =
    Ordered.ofList ((plugins.filter fun d => d.lists interface).map Declaration.key) := by
  refine Ordered.ofList_congr fun n => ?_
  constructor
  · intro hn
    obtain ⟨info, hinfo, rfl⟩ := List.mem_map.1 hn
    obtain ⟨hinfo, himplements⟩ := List.mem_filter.1 hinfo
    obtain ⟨d, hd, hreflects⟩ := h.mem_infos hinfo
    rw [hreflects.implements_eq] at himplements
    exact List.mem_map.2 ⟨d, List.mem_filter.2 ⟨hd, himplements⟩, hreflects.name.symm⟩
  · intro hn
    obtain ⟨d, hd, rfl⟩ := List.mem_map.1 hn
    obtain ⟨hd, hlists⟩ := List.mem_filter.1 hd
    obtain ⟨info, hinfo, hreflects⟩ := h.exists_info hd
    rw [← hreflects.implements_eq] at hlists
    exact List.mem_map.2 ⟨info, List.mem_filter.2 ⟨hinfo, hlists⟩, hreflects.name⟩

/-- Every spelling of a declared name gives an instance that provides what was listed. -/
theorem instantiate (h : L.Knows plugins) (host : Host) {d : Declaration} (hd : d ∈ plugins) {plugin : String}
    (hplugin : Name.normalize plugin = d.key) : ∃ x, (L.instantiate host plugin).1.held = some x ∧
      x.info.Reflects d := by
  obtain ⟨e, he, hreflects⟩ := h.known d hd
  obtain ⟨provides, hproduct, -⟩ := hreflects.factory
  have hmade : (host.instantiate e.info e.library).1 = some ⟨host.fresh, e.info, e.library⟩ := by
    apply Host.instantiate_fst
    rw [hproduct]
    simp
  refine ⟨⟨host.fresh, e.info, e.library⟩, ?_, hreflects⟩
  simp only [Loader.instantiate, hplugin, he]
  exact hmade

end Knows

end Loader

end PluginHost
