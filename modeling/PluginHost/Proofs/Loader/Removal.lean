import PluginHost.Proofs.Loader.Backing
import PluginHost.Proofs.Loader.Failure
import PluginHost.Proofs.Loader.Frame
import PluginHost.Proofs.Loader.Forgotten

/-!
# The library that a path stands for

A path stands for the library that is listed where it leads to now, or else for the one that is listed under
the path itself. A load lists its library under the first of these, so what was just loaded is what the path
stands for.

* `Loader.Targets`: the library that is to be forgotten, by its path. `Loader.Consistent.targets_iff`: it is
  the one that is looked up.
* `Loader.Consistent.mem_references_remove_iff`: what a loader still refers to.
* `Loader.Consistent.forget_after_load`: forgetting what was just loaded.
-/

namespace PluginHost

set_option autoImplicit false

open PluginHost.Table

namespace Loader

/-! ## The target -/

/-- A library is listed under the path, as paths are compared. -/
def Lists (L : Loader) (p : Path) : Prop := ∃ l ∈ L.listed, (l.path == p) = true

/-- The path of the library that `p` stands for: where `p` leads to, which is `p` itself if it leads nowhere,
before `p` as it is. -/
inductive Targets (L : Loader) (files : FileTree) (p : Path) : Option Path → Prop where
  | current (h : L.Lists ((files.canonical? p).getD p)) : Targets L files p (some ((files.canonical? p).getD p))
  | itself (h : ¬ L.Lists ((files.canonical? p).getD p)) (hp : L.Lists p) : Targets L files p (some p)
  | nothing (h : ¬ L.Lists ((files.canonical? p).getD p)) (hp : ¬ L.Lists p) : Targets L files p none

namespace Consistent

variable {L : Loader}

theorem lists_iff (hc : L.Consistent) {p : Path} : L.Lists p ↔ L.libraries.contains p = true := by
  rw [Table.contains, Option.isSome_iff_exists]
  constructor
  · rintro ⟨l, hl, hp⟩
    refine ⟨l, ?_⟩
    rw [← find?_congr L.libraries hp]
    exact hc.mem_listed.1 hl
  · rintro ⟨l, hl⟩
    have hp := hc.filed p l hl
    refine ⟨l, hc.mem_listed.2 ?_, hp⟩
    rw [find?_congr L.libraries hp]
    exact hl

theorem targets_iff (hc : L.Consistent) {files : FileTree} {p : Path} {t : Option Path} :
    L.Targets files p t ↔ L.listedKey files p = t := by
  have hkey : L.Lists (libraryKey files p) ↔ L.libraries.contains (libraryKey files p) = true := hc.lists_iff
  unfold listedKey
  constructor
  · intro ht
    cases ht with
    | current h => exact if_pos (hkey.1 h)
    | itself h hp => rw [if_neg fun hk => h (hkey.2 hk), if_pos (hc.lists_iff.1 hp)]
    | nothing h hp => rw [if_neg fun hk => h (hkey.2 hk), if_neg fun hk => hp (hc.lists_iff.2 hk)]
  · rintro rfl
    split
    · next hk => exact .current (hkey.2 hk)
    · next hk =>
      split
      · next hp => exact .itself (fun h => hk (hkey.1 h)) (hc.lists_iff.2 hp)
      · next hp => exact .nothing (fun h => hk (hkey.1 h)) fun h => hp (hc.lists_iff.1 h)

/-! ## References -/

/-- A loader that forgot a path refers to what it referred to, unless it has that path. -/
theorem mem_references_remove_iff (hc : L.Consistent) (key : Path) {l : Library} :
    l ∈ (L.remove key).references ↔ l ∈ L.references ∧ ¬ (l.path == key) = true := by
  have hw := hc.without_remove key
  have hc' := hc.remove key
  rw [mem_references_iff hc'.libraries hc'.index, mem_references_iff hc.libraries hc.index]
  constructor
  · rintro (⟨q, hq⟩ | ⟨n, e, he, rfl⟩)
    · have hown : (L.remove key).libraries.find? l.path = some l := by
        rw [find?_congr _ (hc'.filed q l hq)]
        exact hq
      obtain ⟨hlisted, hother⟩ := (hw.listed l).1 (hc'.mem_listed.2 hown)
      exact ⟨.inl ⟨l.path, hc.mem_listed.1 hlisted⟩, hother⟩
    · obtain ⟨hold, hother⟩ := (hw.index n e).1 he
      exact ⟨.inr ⟨n, e, hold, rfl⟩, hother⟩
  · rintro ⟨⟨q, hq⟩ | ⟨n, e, he, rfl⟩, hother⟩
    · have hown : L.libraries.find? l.path = some l := by
        rw [find?_congr _ (hc.filed q l hq)]
        exact hq
      exact .inl ⟨l.path, hc'.mem_listed.1 ((hw.listed l).2 ⟨hc.mem_listed.2 hown, hother⟩)⟩
    · exact .inr ⟨n, e, (hw.index n e).2 ⟨he, hother⟩, rfl⟩

end Consistent

/-! ## Forgetting what was loaded -/

/-- A load that names plugins registers a library with them under the key of the path. -/
theorem registered_of_load {L : Loader} {h : Host} {p : Path} (hsome : (L.load h p).1 ≠ []) :
    ∃ library infos, library.path = libraryKey h.files p ∧ (L.load h p).1 = library.plugins ∧
      (L.load h p).2.1 = L.registered library infos ∧
      ∀ n ∈ library.plugins, ∃ info ∈ infos, info.name = n := by
  rw [load_fst] at hsome ⊢
  rw [load_loader]
  rcases L.tryLoad_loader h p with ⟨hnone, -⟩ | ⟨infos, library, ⟨id, o, rfl⟩, hok, -, hregistered⟩
  · cases hanswer : (L.tryLoad h p).1 with
    | error e => simp [hanswer] at hsome
    | ok names => simp [hanswer, hnone names hanswer] at hsome
  · rw [hok]
    exact ⟨_, _, rfl, rfl, hregistered, fun n hn => mem_plugins_record.1 hn⟩

/-- Forgetting the path of such a load takes its library, with all that was named. -/
theorem Consistent.forget_after_load {L : Loader} (hc : L.Consistent) {h : Host} {p : Path}
    (hsome : (L.load h p).1 ≠ []) :
    ((L.load h p).2.1.forget (L.load h p).2.2 p).1 = true ∧
      ∀ n ∈ (L.load h p).1, ((L.load h p).2.1.forget (L.load h p).2.2 p).2.1.index.find? n = none := by
  have hfiles : (L.load h p).2.2.files = h.files := (L.evolves_load h p).files
  have hc' := hc.load h p
  obtain ⟨library, infos, hpath, hnames, hloader, hinfos⟩ := registered_of_load hsome
  have hlisted : (L.load h p).2.1.libraries.contains (libraryKey h.files p) = true := by
    rw [hloader, ← hpath, Table.contains, Loader.registered, find?_put_self]
    rfl
  have hkey : (L.load h p).2.1.listedKey (L.load h p).2.2.files p = some (libraryKey h.files p) := by
    rw [hfiles, listedKey, if_pos hlisted]
  obtain ⟨hanswer, hremoved⟩ := forget_of_listedKey hkey
  refine ⟨hanswer, fun n hn => ?_⟩
  rw [hnames] at hn
  have hfound : ∃ e, (indexed library L.index infos).find? n = some e ∧ e.library = library :=
    exists_find?_indexed (hinfos n hn) L.index
  obtain ⟨e, he, hlibrary⟩ := hfound
  have hknown : (L.load h p).2.1.index.find? n = some e := by
    rw [hloader]
    exact he
  rw [hremoved]
  refine (hc'.without_remove _).index_eq_none hknown ?_
  rw [hlibrary, hpath]
  exact BEq.rfl

/-! ## Instances -/

theorem instances_releaseLibrary (h : Host) (l : Library) : (h.releaseLibrary l).instances = h.instances := by
  unfold Host.releaseLibrary
  split
  · rfl
  · split
    · rw [Host.instances_closeMapping]
      rfl
    · rfl

theorem instances_foldl_releaseEntry (entries : List IndexEntry) (h : Host) :
    (entries.foldl releaseEntry h).instances = h.instances := by
  induction entries generalizing h with
  | nil => rfl
  | cons e entries ih => exact (ih _).trans (instances_releaseLibrary h e.library)

theorem instances_forget (L : Loader) (h : Host) (p : Path) : (L.forget h p).2.2.instances = h.instances := by
  unfold forget
  split
  · rfl
  · split
    · rfl
    · rw [instances_releaseLibrary]
      exact instances_foldl_releaseEntry _ h

end Loader

end PluginHost
