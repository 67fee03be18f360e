import PluginHost.Loader.Query
import PluginHost.Proofs.Image.Exported
import PluginHost.Proofs.Loader.Representation

/-!
# One relation behind all questions

A loader is asked for its plugins, for the interfaces of a plugin, for the plugins of an interface and for all
interfaces. Every answer is read off one relation: which canonical names of plugins are known, and which
canonical names of interfaces each of them has.

* `Loader.mem_infos_iff`: a plugin is listed if it is found under its name.
* `Loader.mem_implementing_iff`, `Loader.mem_interfacesImplemented_iff`: the questions about interfaces.
* `Loader.Tells`, `Loader.Represented.tells`: all questions together.
-/

namespace PluginHost.Loader

set_option autoImplicit false

open PluginHost.Table

variable {L : Loader} {info : PluginInfo} {p s : String}

/-! ## Plugins -/

/-- A plugin is found under every spelling of its name, and stands under the canonical one. -/
theorem Represented.name_of_pluginInfo (hr : L.Represented) (h : L.pluginInfo p = some info) :
    info.name = Name.normalize p := by
  obtain ⟨e, he, rfl⟩ := Option.map_eq_some_iff.1 h
  obtain ⟨k, hk, hkey⟩ := exists_mem_of_find? he
  rw [hr.name (k, e) hk]
  exact eq_of_beq hkey

theorem mem_infos_of_pluginInfo (h : L.pluginInfo p = some info) : info ∈ L.infos := by
  obtain ⟨e, he, rfl⟩ := Option.map_eq_some_iff.1 h
  exact List.mem_map_of_mem (mem_values_of_find? he)

theorem Represented.canonical_of_mem_infos (hr : L.Represented) (h : info ∈ L.infos) :
    Name.normalize info.name = info.name := by
  obtain ⟨_, hvalue, rfl⟩ := List.mem_map.1 h
  obtain ⟨e, he, rfl⟩ := List.mem_map.1 hvalue
  rw [hr.name e he]
  exact Name.normalize_of_isCanonical (hr.canonical e he)

/-- A plugin is listed if it is found under its name. -/
theorem mem_infos_iff (hd : L.index.Distinct) (hr : L.Represented) :
    info ∈ L.infos ↔ L.pluginInfo info.name = some info := by
  refine ⟨fun h => ?_, mem_infos_of_pluginInfo⟩
  rw [pluginInfo, hr.canonical_of_mem_infos h]
  obtain ⟨_, hvalue, rfl⟩ := List.mem_map.1 h
  obtain ⟨e, he, rfl⟩ := List.mem_map.1 hvalue
  rw [hr.name e he, find?_of_mem hd (k := e.1) (v := e.2) he]
  rfl

/-- The names that are listed are the keys of the index, so that none comes twice. -/
theorem Represented.names_infos (hr : L.Represented) : L.infos.map PluginInfo.name = L.index.keys := by
  simp only [infos, values, keys, List.map_map]
  exact List.map_congr_left hr.name

theorem Represented.nodup_names_infos (hr : L.Represented) (hd : L.index.Distinct) :
    (L.infos.map PluginInfo.name).Nodup := by
  rw [hr.names_infos]
  exact List.pairwise_map.2 (hd.imp fun h => by simpa using h)

theorem count_names_infos (hd : L.index.Distinct) (hr : L.Represented) (p : String) :
    (L.infos.map PluginInfo.name).count (Name.normalize p) =
      if (L.pluginInfo p).isSome = true then 1 else 0 := by
  have hmem : Name.normalize p ∈ L.infos.map PluginInfo.name ↔ (L.pluginInfo p).isSome = true := by
    rw [List.mem_map, Option.isSome_iff_exists]
    constructor
    · rintro ⟨info, hinfo, hname⟩
      have hfound := (mem_infos_iff hd hr).1 hinfo
      rw [hname, pluginInfo, Name.normalize_normalize] at hfound
      exact ⟨info, hfound⟩
    · rintro ⟨info, hinfo⟩
      exact ⟨info, mem_infos_of_pluginInfo hinfo, hr.name_of_pluginInfo hinfo⟩
  split
  · next hsome => exact List.count_eq_one_of_mem (hr.nodup_names_infos hd) (hmem.2 hsome)
  · next hnone => exact List.count_eq_zero_of_not_mem fun h => hnone (hmem.1 h)

/-- A name is listed when there is an entry under it. -/
theorem Represented.mem_plugins_iff (hr : L.Represented) (hd : L.index.Distinct) :
    p ∈ L.plugins ↔ ∃ e, L.index.find? p = some e := by
  rw [plugins, Ordered.mem_ofList, hr.names_infos]
  constructor
  · intro hp
    obtain ⟨e, he, rfl⟩ := List.mem_map.1 hp
    exact ⟨e.2, find?_of_mem hd he⟩
  · rintro ⟨e, he⟩
    obtain ⟨k, hk, hkey⟩ := exists_mem_of_find? he
    rw [← eq_of_beq hkey]
    exact List.mem_map_of_mem hk

/-! ## Interfaces -/

theorem mem_implementing_iff (hd : L.index.Distinct) (hr : L.Represented) {n : String} :
    n ∈ L.implementing s ↔
      Name.normalize n = n ∧ ∃ info, L.pluginInfo n = some info ∧ info.implements s = true := by
  rw [implementing, Ordered.mem_ofList, List.mem_map]
  constructor
  · rintro ⟨info, hinfo, rfl⟩
    obtain ⟨hmem, himplements⟩ := List.mem_filter.1 hinfo
    exact ⟨hr.canonical_of_mem_infos hmem, info, (mem_infos_iff hd hr).1 hmem, himplements⟩
  · rintro ⟨hname, info, hinfo, himplements⟩
    refine ⟨info, List.mem_filter.2 ⟨mem_infos_of_pluginInfo hinfo, himplements⟩, ?_⟩
    rw [hr.name_of_pluginInfo hinfo, hname]

theorem mem_interfacesImplemented_iff (hd : L.index.Distinct) (hr : L.Represented) {i : String} :
    i ∈ L.interfacesImplemented ↔ Name.normalize i = i ∧ ∃ n, n ∈ L.implementing i := by
  simp only [interfacesImplemented, Ordered.mem_ofList, List.mem_flatMap]
  constructor
  · rintro ⟨info, hinfo, hi⟩
    have hcanonical : Name.normalize i = i := by
      obtain ⟨_, hvalue, rfl⟩ := List.mem_map.1 hinfo
      obtain ⟨e, he, rfl⟩ := List.mem_map.1 hvalue
      obtain ⟨line, hline, rfl⟩ := List.mem_map.1 hi
      exact Name.normalize_of_isCanonical (hr.interfaces e he line hline)
    refine ⟨hcanonical, info.name, (mem_implementing_iff hd hr).2 ?_⟩
    refine ⟨hr.canonical_of_mem_infos hinfo, info, (mem_infos_iff hd hr).1 hinfo, ?_⟩
    rw [PluginInfo.implements_iff, hcanonical]
    exact hi
  · rintro ⟨hcanonical, n, hn⟩
    obtain ⟨-, info, hinfo, himplements⟩ := (mem_implementing_iff hd hr).1 hn
    rw [PluginInfo.implements_iff, hcanonical] at himplements
    exact ⟨info, mem_infos_of_pluginInfo hinfo, himplements⟩

/-! ## All questions -/

/-- What a loader answers to one question follows from what it answers to another. -/
structure Tells (L : Loader) : Prop where
  /-- The known plugins are listed once each, by their canonical names, and nothing else is. -/
  listed : (∀ p, (L.infos.map PluginInfo.name).count (Name.normalize p) =
      if (L.pluginInfo p).isSome = true then 1 else 0) ∧
    ∀ info, info ∈ L.infos ↔ L.pluginInfo info.name = some info ∧ Name.normalize info.name = info.name
  named : ∀ p info, L.pluginInfo p = some info → info.name = Name.normalize p
  implementing : ∀ s p, Name.normalize p ∈ L.implementing s ↔
    ∃ info, L.pluginInfo p = some info ∧ info.implements s = true
  interfaces : ∀ s, Name.normalize s ∈ L.interfacesImplemented ↔ L.implementing s ≠ []
  /-- No other spellings are answered. -/
  canonical : (∀ s, ∀ n ∈ L.implementing s, Name.normalize n = n) ∧
    ∀ i ∈ L.interfacesImplemented, Name.normalize i = i

theorem Represented.tells (hr : L.Represented) (hd : L.index.Distinct) : L.Tells where
  listed := by
    refine ⟨count_names_infos hd hr, fun info => ⟨fun h => ?_, fun h => mem_infos_of_pluginInfo h.1⟩⟩
    exact ⟨(mem_infos_iff hd hr).1 h, hr.canonical_of_mem_infos h⟩
  named := fun _ _ => hr.name_of_pluginInfo
  implementing := fun s p => by
    rw [mem_implementing_iff hd hr, Name.normalize_normalize, pluginInfo, pluginInfo, Name.normalize_normalize]
    exact and_iff_right rfl
  interfaces := fun s => by
    have hspelling : ∀ info : PluginInfo, info.implements (Name.normalize s) = info.implements s := fun info => by
      rw [Bool.eq_iff_iff, PluginInfo.implements_iff, PluginInfo.implements_iff, Name.normalize_normalize]
    have hsame : L.implementing (Name.normalize s) = L.implementing s := by
      simp only [implementing, hspelling]
    rw [mem_interfacesImplemented_iff hd hr, Name.normalize_normalize, hsame]
    exact ⟨fun ⟨_, _, hn⟩ => List.ne_nil_of_mem hn, fun h => ⟨rfl, List.exists_mem_of_ne_nil _ h⟩⟩
  canonical := ⟨fun _ _ hn => ((mem_implementing_iff hd hr).1 hn).1,
    fun _ hi => ((mem_interfacesImplemented_iff hd hr).1 hi).1⟩

end PluginHost.Loader
