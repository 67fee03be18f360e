import PluginHost.Proofs.Image.Uses
import PluginHost.Proofs.Ordered

/-!
# The names that an image exports

A descriptor names a plugin and its interfaces in spellings of the library's own. A host decodes them, drops
what it cannot use and keeps their canonical forms, and each of these comes from a spelling that the library
exported.

* `Image.exported`: the decoded names in the descriptors of an image.
* `PluginInfo.mem_interfaceNames_normalized`: the canonical interface names of a plugin.
* `Image.Offers.exported`: the names of a plugin that is offered are those of one descriptor.
-/

namespace PluginHost

set_option autoImplicit false

/-! ## Decoded names -/

/-- The name of a plugin and the names in its interface table, as they are decoded. -/
def Descriptor.exported (d : Descriptor) : Option (String × List String) :=
  (PluginInfo.readName d.name).map fun name =>
    (name, ((d.interfaces.getD []).filterMap PluginInfo.readEntry).map Prod.fst)

def LegacyDescriptor.exported (d : LegacyDescriptor) : Option (String × List String) :=
  (PluginInfo.readName d.name).map fun name => (name, (PluginInfo.readName d.interface).toList)

/-- The names of each descriptor that has one for its plugin. -/
def Image.exported (image : Image) : List (String × List String) :=
  (image.multi.elim [] fun t => t.rows.filterMap Descriptor.exported) ++
    image.single.elim [] fun e => e.descriptor.exported.toList

/-! ## Names that are kept -/

namespace PluginInfo

theorem mem_interfaceNames_normalized {info : PluginInfo} {n : String} :
    n ∈ info.normalized.interfaceNames ↔ n ∈ info.interfaceNames.map Name.normalize := by
  have hkeys : (info.interfaces.map fun e => (Name.normalize e.1, e.2)).map Prod.fst =
      info.interfaceNames.map Name.normalize := by
    rw [interfaceNames, List.map_map, List.map_map]
    rfl
  rw [← hkeys]
  exact Ordered.mem_keys_putAll

theorem implements_iff {info : PluginInfo} {interface : String} :
    info.implements interface = true ↔ Name.normalize interface ∈ info.interfaceNames :=
  Ordered.isSome_find?_iff

theorem exported_of_ofDescriptor {d : Descriptor} {info : PluginInfo}
    (h : (ofDescriptor d).2 = some info) :
    ∃ names, d.exported = some (info.name, names) ∧ ∀ n, n ∈ info.interfaceNames ↔ n ∈ names := by
  unfold ofDescriptor at h
  split at h
  · simp at h
  · next name hname =>
    split at h
    · rw [← Option.some.inj h]
      exact ⟨_, by rw [Descriptor.exported, hname]; rfl, fun n => Ordered.mem_keys_putAll⟩
    · simp at h

theorem exported_of_ofLegacy {d : LegacyDescriptor} {info : PluginInfo}
    (h : (ofLegacy d).2 = some info) : d.exported = some (info.name, info.interfaceNames) := by
  unfold ofLegacy at h
  split at h
  · simp at h
  · next name hname =>
    split at h
    · simp at h
    · rw [← Option.some.inj h, LegacyDescriptor.exported, hname, interfaceNames, List.map_map]
      exact congrArg (fun names => some (name, names)) (List.map_id _).symm

end PluginInfo

/-! ## Names that are offered -/

/-- A plugin that is offered has the canonical names of one descriptor: its own, and those of all the
interfaces that are listed there and of no others. -/
theorem Image.Offers.exported {image : Image} {info : PluginInfo} (h : image.Offers info) :
    ∃ name names, (name, names) ∈ image.exported ∧ info.name = Name.normalize name ∧
      ∀ n, n ∈ info.interfaceNames ↔ n ∈ names.map Name.normalize := by
  obtain ⟨n, hn, read, hread, rfl⟩ := h
  -- the rows of a table, or the one descriptor of an older version
  rcases infos_of_negotiate hn with ⟨-, d, hd, hinfos⟩ | ⟨-, shape, s, d, hs, hd, hinfos⟩
  · obtain ⟨t, ht, rfl⟩ := Option.map_eq_some_iff.1 hd
    rw [hinfos] at hread
    obtain ⟨row, hrow, hof⟩ := row_of_readCurrent hread
    obtain ⟨names, hexported, hnames⟩ := PluginInfo.exported_of_ofDescriptor hof
    refine ⟨read.name, names, List.mem_append_left _ ?_, rfl, fun k => ?_⟩
    · rw [ht]
      exact List.mem_filterMap.2 ⟨row, hrow, hexported⟩
    · rw [PluginInfo.mem_interfaceNames_normalized, List.mem_map, List.mem_map]
      exact exists_congr fun i => and_congr_left fun _ => hnames i
  · obtain ⟨e, he, rfl⟩ := Option.map_eq_some_iff.1 hs
    rw [hinfos] at hread
    have hof := Option.mem_toList.1 hread
    rw [e.descriptor_of_describe hd] at hof
    refine ⟨read.name, read.interfaceNames, List.mem_append_right _ ?_, rfl, fun k =>
      PluginInfo.mem_interfaceNames_normalized⟩
    rw [he]
    exact Option.mem_toList.2 (PluginInfo.exported_of_ofLegacy hof)

end PluginHost
