import PluginHost.Image

/-!
# What an image offers

The plugins that are read from an image are those of its descriptors. Descriptors of the current version
name a deleter, and a plugin without one is not offered; descriptors of versions 1 and 2 name none.

* `negotiate_deleters`: the deleters of what is read, by the declared version.
* `Image.Offers`: reading the image gives the plugin.
* `Image.Offers.deleter_eq_plugin_iff`: a plugin has a deleter exactly when the version is the current one.
-/

namespace PluginHost

set_option autoImplicit false

/-! ## Reading descriptors -/

theorem PluginInfo.deleter_of_ofDescriptor {d : Descriptor} {info : PluginInfo}
    (h : (PluginInfo.ofDescriptor d).2 = some info) : info.deleter = .plugin := by
  unfold PluginInfo.ofDescriptor at h
  split at h
  · simp at h
  · split at h
    · rw [← Option.some.inj h]
    · simp at h

theorem PluginInfo.deleter_of_ofLegacy {d : LegacyDescriptor} {info : PluginInfo}
    (h : (PluginInfo.ofLegacy d).2 = some info) : info.deleter = .leak := by
  unfold PluginInfo.ofLegacy at h
  split at h
  · simp at h
  · split at h
    · simp at h
    · rw [← Option.some.inj h]

theorem deleter_of_readCurrent {d : Describe} {info : PluginInfo} (h : info ∈ (readCurrent d).2) :
    info.deleter = .plugin := by
  obtain ⟨call, -, hcall⟩ := List.mem_filterMap.1 h
  unfold readCall at hcall
  split at hcall
  · simp at hcall
  · split at hcall
    · next notices other heq =>
      rw [← Option.some.inj hcall]
      exact PluginInfo.deleter_of_ofDescriptor (by rw [heq])
    · simp at hcall

theorem deleter_of_readLegacy {shape : LegacyShape} {d : LegacyDescriptor} {info : PluginInfo}
    (h : info ∈ (readLegacy shape d).2) : info.deleter = .leak :=
  PluginInfo.deleter_of_ofLegacy (Option.mem_toList.1 h)

/-! ## Negotiation -/

theorem infos_of_settle {version : Int} {read : List Probe × List PluginInfo} {n : Negotiated}
    (h : (settle version read).2 = .ok n) : n.infos = read.2 := by
  unfold settle at h
  split at h
  · simp at h
  · rw [← Except.ok.inj h]

/-- The version decides which of the two functions gives the plugins. -/
theorem infos_of_readVersion {e : Exports} {version : Int} {size : Nat} {n : Negotiated}
    (h : (readVersion e version size).2 = .ok n) :
    (version = Abi.currentVersion ∧ ∃ d, e.multi = some d ∧ n.infos = (readCurrent d).2) ∨
      ((version = Abi.fillVersion ∨ version = Abi.returnVersion) ∧
        ∃ shape s d, e.single = some s ∧ (s.fill Abi.legacySize = some d ∨ s.value = d) ∧
          n.infos = (readLegacy shape d).2) := by
  unfold readVersion at h
  split at h
  · next hcurrent =>
    refine .inl ⟨hcurrent, ?_⟩
    split at h
    · simp at h
    · split at h
      · simp at h
      · next d hd => exact ⟨d, hd, infos_of_settle h⟩
  · split at h
    · next hfill =>
      refine .inr ⟨.inl hfill, ?_⟩
      split at h
      · simp at h
      · split at h
        · simp at h
        · next s hs =>
          split at h
          · simp at h
          · next d hd => exact ⟨.fills, s, d, hs, .inl hd, infos_of_settle h⟩
    · split at h
      · next hreturn =>
        refine .inr ⟨.inr hreturn, ?_⟩
        split at h
        · simp at h
        · split at h
          · simp at h
          · next s hs => exact ⟨.returns, s, s.value, hs, .inr rfl, infos_of_settle h⟩
      · simp at h

theorem infos_of_negotiate {e : Exports} {n : Negotiated} (h : (negotiate e).2 = .ok n) :
    (e.version = some Abi.currentVersion ∧ ∃ d, e.multi = some d ∧ n.infos = (readCurrent d).2) ∨
      ((e.version = some Abi.fillVersion ∨ e.version = some Abi.returnVersion) ∧
        ∃ shape s d, e.single = some s ∧ (s.fill Abi.legacySize = some d ∨ s.value = d) ∧
          n.infos = (readLegacy shape d).2) := by
  unfold negotiate at h
  split at h
  · next version size hversion _ =>
    split at h
    · simp at h
    · simp only [hversion, Option.some.injEq]
      exact infos_of_readVersion h
  · simp at h

/-- Plugins of the current version have deleters, and plugins of the two older versions have none; there
is no other version. -/
theorem negotiate_deleters {e : Exports} {n : Negotiated} (h : (negotiate e).2 = .ok n) :
    (e.version = some Abi.currentVersion ∧ ∀ info ∈ n.infos, info.deleter = .plugin) ∨
      ((e.version = some Abi.fillVersion ∨ e.version = some Abi.returnVersion) ∧
        ∀ info ∈ n.infos, info.deleter = .leak) := by
  rcases infos_of_negotiate h with ⟨hcurrent, d, -, hinfos⟩ | ⟨hold, shape, s, d, -, -, hinfos⟩
  · refine .inl ⟨hcurrent, fun info hinfo => ?_⟩
    rw [hinfos] at hinfo
    exact deleter_of_readCurrent hinfo
  · refine .inr ⟨hold, fun info hinfo => ?_⟩
    rw [hinfos] at hinfo
    exact deleter_of_readLegacy hinfo

/-! ## Offers -/

/-- Reading the exports of the image gives the plugin, with its names in canonical spelling. -/
def Image.Offers (image : Image) (info : PluginInfo) : Prop :=
  ∃ n, (negotiate image.exports).2 = .ok n ∧ ∃ i ∈ n.infos, info = i.normalized

theorem Image.Offers.deleter_eq_plugin_iff {image : Image} {info : PluginInfo}
    (h : image.Offers info) : info.deleter = .plugin ↔ image.version = some Abi.currentVersion := by
  obtain ⟨n, hn, i, hi, rfl⟩ := h
  have hdeleter : i.normalized.deleter = i.deleter := rfl
  rw [hdeleter]
  rcases negotiate_deleters hn with ⟨hversion, hall⟩ | ⟨hversion, hall⟩
  · simp only [hall i hi, true_iff]
    exact hversion
  · have hold : image.version ≠ some Abi.currentVersion := by
      have hsame : image.exports.version = image.version := rfl
      rw [hsame] at hversion
      rcases hversion with hversion | hversion <;> rw [hversion] <;> decide
    simp [hall i hi, hold]

end PluginHost
