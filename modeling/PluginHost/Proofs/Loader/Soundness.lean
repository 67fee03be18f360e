import Mathlib.Tactic.Abel
import PluginHost.Loader.Forgetting
import PluginHost.Loader.Loading
import PluginHost.Proofs.Host.Soundness

/-!
# Every operation of a loader is sound

A loader refers to the libraries in its table and to those of the plugins in its index. Whatever it does,
the host stays in balance with these references, and with whatever else is owned in the host.

* `Loader.references`: the libraries that a loader refers to, each as often as it does.
* `Loader.Sound`: a loader together with a sound host.
* `Loader.Sound.tryLoad`, `Loader.Sound.forget`, `Loader.Sound.dispose`, …: the operations.
-/

namespace PluginHost.Loader

set_option autoImplicit false

open PluginHost.Table PluginHost.Journal

/-! ## References -/

/-- The libraries that a loader refers to, from its table and from its index. -/
def references (L : Loader) : Multiset Library :=
  L.libraries.bag + L.index.bag.map IndexEntry.library

/-- The loader refers to libraries of the host, which is in balance with these references, with
`referred` besides, and with the other owners. -/
structure Sound (births : Nat → Prop) (earlier : Host) (L : Loader) (h : Host) (opened : Multiset Nat)
    (referred : Multiset Library) (held : Multiset Instance) : Prop where
  libraries : L.libraries.Distinct
  index : L.index.Distinct
  host : Host.Sound births earlier h opened (L.references + referred) held

theorem references_withConfig (config : Config) : (withConfig config).references = 0 := rfl

namespace Sound

variable {births : Nat → Prop} {earlier h h' : Host} {L : Loader} {opened : Multiset Nat}
  {referred : Multiset Library} {held : Multiset Instance} {library : Library}

theorem restart (hs : Sound births earlier L h opened referred held) :
    Sound births h L h opened referred held :=
  ⟨hs.libraries, hs.index, hs.host.restart⟩

theorem withHost {opened' : Multiset Nat} {held' : Multiset Instance}
    (hs : Sound births earlier L h opened referred held)
    (hh : Host.Sound births earlier h' opened' (L.references + referred) held') :
    Sound births earlier L h' opened' referred held' :=
  ⟨hs.libraries, hs.index, hh⟩

/-! ## Registration -/

theorem enter (hs : Sound births earlier L h opened referred held) (hl : library ∈ referred)
    (info : PluginInfo) :
    Sound births earlier (enter library L h info).1 (enter library L h info).2 opened referred held := by
  have hretained := hs.host.retainLibrary (l := library) (Multiset.mem_add.2 (.inr hl))
  refine ⟨hs.libraries, hs.index.put _ _, ?_⟩
  have hbag := bag_put hs.index info.name ⟨info, library⟩
  simp only [Loader.enter, references] at hretained ⊢
  rw [hbag, Multiset.map_cons]
  cases hfind : L.index.find? info.name with
  | some known =>
    rw [bag_of_find? hs.index hfind, Multiset.map_cons] at hretained
    refine Host.Sound.releaseLibrary ?_
    convert hretained using 1
    simp only [← Multiset.singleton_add]
    abel
  | none =>
    rw [erase_of_find?_eq_none hfind]
    convert hretained using 1
    simp only [← Multiset.singleton_add]
    abel

theorem enterAll (hs : Sound births earlier L h opened referred held) (hl : library ∈ referred)
    (infos : List PluginInfo) :
    Sound births earlier (enterAll library L h infos).1 (enterAll library L h infos).2 opened referred
      held := by
  induction infos generalizing L h with
  | nil => exact hs
  | cons info infos ih => exact ih (hs.enter hl info)

theorem enlist (hs : Sound births earlier L h opened (library ::ₘ referred) held) :
    Sound births earlier (enlist library L h).1 (enlist library L h).2 opened referred held := by
  refine ⟨hs.libraries.put _ _, hs.index, ?_⟩
  have hhost := hs.host
  have hbag := bag_put hs.libraries library.path library
  simp only [Loader.enlist, references] at hhost ⊢
  rw [hbag]
  cases hfind : L.libraries.find? library.path with
  | some old =>
    rw [bag_of_find? hs.libraries hfind] at hhost
    refine Host.Sound.releaseLibrary ?_
    convert hhost using 1
    simp only [← Multiset.singleton_add]
    abel
  | none =>
    rw [erase_of_find?_eq_none hfind]
    convert hhost using 1
    simp only [← Multiset.singleton_add]
    abel

theorem register {o : Origin} (hs : Sound births earlier L h (o.mapping ::ₘ opened) referred held)
    (key : Path) (infos : List PluginInfo) :
    Sound births earlier (L.register h key o infos).2.1 (L.register h key o infos).2.2 opened referred
      held := by
  have hjudged := hs.host.notes (L.verdicts key infos)
  simp only [Loader.register]
  split
  · exact hs.withHost hjudged.closeMapping
  · have hnew := hjudged.newLibrary key
      (Ordered.ofList ((L.accepted key infos).map PluginInfo.name))
    rw [← Multiset.add_cons] at hnew
    exact enlist (enterAll ⟨hs.libraries, hs.index, hnew⟩ (Multiset.mem_cons_self _ _) _)

/-! ## Loading -/

theorem probe {o : Origin} (hs : Host.Sound births earlier h (o.mapping ::ₘ opened) referred held)
    (p : Probe) : Host.Sound births earlier (probe o h p) (o.mapping ::ₘ opened) referred held := by
  obtain ⟨v, hv⟩ := hs.balanced.resident_of_opened
  cases p with
  | describe index => exact hs.call (c := .describe index) trivial (hs.resident hv) trivial
  | describeLegacy shape =>
    exact hs.call (c := .describeLegacy shape) trivial (hs.resident hv) trivial
  | notice n => exact hs.note n

theorem probes {o : Origin} (hs : Host.Sound births earlier h (o.mapping ::ₘ opened) referred held)
    (ps : List Probe) :
    Host.Sound births earlier (ps.foldl (Loader.probe o) h) (o.mapping ::ₘ opened) referred held := by
  induction ps generalizing h with
  | nil => exact hs
  | cons p ps ih => exact ih (probe hs p)

theorem warnOutdated (hs : Host.Sound births earlier h opened referred held) (L : Loader) (p : Path)
    (n : Negotiated) : Host.Sound births earlier (L.warnOutdated h p n) opened referred held := by
  unfold Loader.warnOutdated
  split
  · exact hs.note _
  · exact hs

theorem receive {o : Origin} (hs : Sound births earlier L h (o.mapping ::ₘ opened) referred held)
    (p : Path) (exports : Exports) :
    Sound births earlier (L.receive h p o exports).2.1 (L.receive h p o exports).2.2 opened referred
      held := by
  have hread := probes (hs.host.note (.declares p exports.version exports.infoSize))
    (negotiate exports).1
  unfold Loader.receive
  simp only
  cases (negotiate exports).2 with
  | error e => exact hs.withHost hread.closeMapping
  | ok n =>
    have hwarned := hs.withHost (warnOutdated hread L p n)
    have hregistered := hwarned.register (libraryKey h.files p) n.infos
    exact hregistered.withHost (hregistered.host.note _)

theorem tryLoad (hs : Sound births earlier L h opened referred held) (p : Path) :
    Sound births earlier (L.tryLoad h p).2.1 (L.tryLoad h p).2.2 opened referred held := by
  unfold Loader.tryLoad
  split
  · have hopening := hs.host.note (.opening p)
    simp only [Host.openLibrary]
    cases hlocate : (h.note (.opening p)).locate p with
    | none => exact hs.withHost hopening
    | some found =>
      obtain ⟨id, v⟩ := found
      exact (hs.withHost (hopening.hold hlocate)).receive
        (o := ⟨id, v.image.id, v.image.reports⟩) p v.image.exports
  · exact hs

theorem load (hs : Sound births earlier L h opened referred held) (p : Path) :
    Sound births earlier (L.load h p).2.1 (L.load h p).2.2 opened referred held := by
  have hload := hs.tryLoad p
  unfold Loader.load
  split
  · next names L' h' heq =>
    rw [heq] at hload
    exact hload
  · next e L' h' heq =>
    rw [heq] at hload
    exact hload.withHost (hload.host.note _)

theorem loadAll (hs : Sound births earlier L h opened referred held) (paths : List Path) :
    Sound births earlier (L.loadAll h paths).2.1 (L.loadAll h paths).2.2 opened referred held :=
  loadAll_induction (motive := fun L h => Sound births earlier L h opened referred held) paths hs
    fun _ _ p hs => hs.load p

theorem loadConfigured (hs : Sound births earlier L h opened referred held) :
    Sound births earlier (L.loadConfigured h).2.1 (L.loadConfigured h).2.2 opened referred held :=
  hs.loadAll L.config.preload

/-! ## Forgetting -/

theorem releaseEntries {es : List IndexEntry}
    (hs : Host.Sound births earlier h opened (↑(es.map IndexEntry.library) + referred) held) :
    Host.Sound births earlier (es.foldl releaseEntry h) opened referred held := by
  induction es generalizing h with
  | nil => simpa using hs
  | cons e es ih =>
    simp only [List.map_cons, ← Multiset.cons_coe, Multiset.cons_add] at hs
    exact ih hs.releaseLibrary

theorem releaseLibraries {ls : List Library}
    (hs : Host.Sound births earlier h opened (↑ls + referred) held) :
    Host.Sound births earlier (ls.foldl Host.releaseLibrary h) opened referred held := by
  induction ls generalizing h with
  | nil => simpa using hs
  | cons l ls ih =>
    simp only [← Multiset.cons_coe, Multiset.cons_add] at hs
    exact ih hs.releaseLibrary

theorem forget (hs : Sound births earlier L h opened referred held) (p : Path) :
    Sound births earlier (L.forget h p).2.1 (L.forget h p).2.2 opened referred held := by
  unfold Loader.forget
  split
  · exact hs.withHost (hs.host.note _)
  · next key _ =>
    split
    · exact hs
    · next library hfind =>
      refine ⟨hs.libraries.erase key, hs.index.filter _, ?_⟩
      have hhost := hs.host
      have hindex := bag_filter_add L.index fun e => e.library.path == key
      simp only [references] at hhost
      rw [bag_of_find? hs.libraries hfind, ← hindex] at hhost
      refine Host.Sound.releaseLibrary (Host.Sound.note (releaseEntries ?_) _)
      convert hhost using 1
      simp only [remove, references, ownedBy, Multiset.map_add, Multiset.map_coe,
        ← Multiset.singleton_add]
      abel

theorem forgetOf (hs : Sound births earlier L h opened referred held) (plugin : String) :
    Sound births earlier (L.forgetOf h plugin).2.1 (L.forgetOf h plugin).2.2 opened referred held := by
  unfold Loader.forgetOf
  split
  · exact hs.forget _
  · exact hs.withHost (hs.host.note _)

theorem dispose (hs : Sound births earlier L h opened referred held) :
    Host.Sound births earlier (L.dispose h) opened referred held := by
  have hhost := hs.host
  refine releaseEntries (releaseLibraries ?_)
  rw [← add_assoc]
  exact hhost

end Sound

end PluginHost.Loader
