import PluginHost.Proofs.Image.Uses
import PluginHost.Proofs.Loader.Operation
import PluginHost.Proofs.Name.Canonical

/-!
# The representation of a loader

The index and the table are two lists of entries that share libraries. Registering puts entries into both;
forgetting takes a key out of the table and, by another comparison, entries out of the index. A reload
leaves entries of the index with a library that is not in the table any more. What follows is said of all
entries that are there, also of those.

* `Library.WellNamed`: a library was registered with some plugins, by canonical names.
* `Loader.Represented`: what the entries of the two tables are like.
* `Loader.represented_after`: loading and forgetting keep it, whatever the host is.
-/

namespace PluginHost

set_option autoImplicit false

open PluginHost.Table

/-- The library was registered with some plugins, by canonical names. -/
structure Library.WellNamed (l : Library) : Prop where
  some : l.plugins ≠ []
  canonical : ∀ n ∈ l.plugins, Name.IsCanonical n.toList

namespace Loader

/-- What the entries of the index and of the table of a loader are like. -/
structure Represented (L : Loader) : Prop where
  name : ∀ e ∈ L.index, e.2.info.name = e.1
  canonical : ∀ e ∈ L.index, Name.IsCanonical e.1.toList
  interfaces : ∀ e ∈ L.index, ∀ i ∈ e.2.info.interfaces, Name.IsCanonical i.1.toList
  path : ∀ e ∈ L.libraries, (e.1 == e.2.path) = true
  indexed : ∀ e ∈ L.index, e.2.library.WellNamed
  filed : ∀ e ∈ L.libraries, e.2.WellNamed
  own : ∀ e ∈ L.index, e.1 ∈ e.2.library.plugins
  /-- There is a library under the path of the library of every known plugin. -/
  listed : ∀ e ∈ L.index, L.libraries.contains e.2.library.path = true

theorem represented_withConfig (config : Config) : (withConfig config).Represented := by
  constructor <;> intro e he <;> simp [withConfig] at he

/-! ## Registering -/

/-- The infos of a registration have canonical names. -/
theorem canonical_of_accepted {L : Loader} {key : Path} {infos : List PluginInfo} {info : PluginInfo}
    (hinfo : info ∈ L.accepted key infos) :
    Name.IsCanonical info.name.toList ∧ ∀ i ∈ info.interfaces, Name.IsCanonical i.1.toList := by
  obtain ⟨raw, -, rfl⟩ := List.mem_map.1 (List.mem_filter.1 hinfo).1
  refine ⟨Name.isCanonical_normalize raw.name, fun i hi => ?_⟩
  obtain ⟨e, -, rfl⟩ := List.mem_map.1 (Ordered.mem_of_mem_putAll hi)
  exact Name.isCanonical_normalize e.1

/-- An entry of the index after plugins are put into it is one of theirs or was there before. -/
theorem mem_indexed {library : Library} {index : Table String IndexEntry} {infos : List PluginInfo}
    {e : String × IndexEntry} (he : e ∈ indexed library index infos) :
    (∃ info ∈ infos, e = (info.name, ⟨info, library⟩)) ∨ e ∈ index := by
  induction infos generalizing index with
  | nil => exact .inr he
  | cons info infos ih =>
    rcases ih he with ⟨other, hother, rfl⟩ | hput
    · exact .inl ⟨other, List.mem_cons_of_mem info hother, rfl⟩
    · rcases eq_or_mem_of_mem_put hput with ⟨hkey, hvalue⟩ | hold
      · exact .inl ⟨info, List.mem_cons_self, Prod.ext (eq_of_beq hkey) hvalue⟩
      · exact .inr hold

namespace Represented

variable {L : Loader}

theorem registered (hr : L.Represented) {library : Library} {infos : List PluginInfo}
    (hnamed : library.WellNamed)
    (hinfos : ∀ info ∈ infos, info.name ∈ library.plugins ∧ Name.IsCanonical info.name.toList ∧
      ∀ i ∈ info.interfaces, Name.IsCanonical i.1.toList) :
    (L.registered library infos).Represented where
  name := by
    intro e he
    rcases mem_indexed he with ⟨info, -, rfl⟩ | hold
    · rfl
    · exact hr.name e hold
  canonical := by
    intro e he
    rcases mem_indexed he with ⟨info, hinfo, rfl⟩ | hold
    · exact (hinfos info hinfo).2.1
    · exact hr.canonical e hold
  interfaces := by
    intro e he
    rcases mem_indexed he with ⟨info, hinfo, rfl⟩ | hold
    · exact (hinfos info hinfo).2.2
    · exact hr.interfaces e hold
  path := by
    intro e he
    rcases eq_or_mem_of_mem_put he with ⟨hkey, hvalue⟩ | hold
    · rw [hvalue]
      exact hkey
    · exact hr.path e hold
  indexed := by
    intro e he
    rcases mem_indexed he with ⟨info, -, rfl⟩ | hold
    · exact hnamed
    · exact hr.indexed e hold
  filed := by
    intro e he
    rcases eq_or_mem_of_mem_put he with ⟨-, hvalue⟩ | hold
    · rw [hvalue]
      exact hnamed
    · exact hr.filed e hold
  own := by
    intro e he
    rcases mem_indexed he with ⟨info, hinfo, rfl⟩ | hold
    · exact (hinfos info hinfo).1
    · exact hr.own e hold
  listed := by
    intro e he
    simp only [Loader.registered, contains, find?_put]
    split
    · rfl
    · next hother =>
      rcases mem_indexed he with ⟨info, -, rfl⟩ | hold
      · exact absurd BEq.rfl hother
      · exact hr.listed e hold

theorem tryLoad (hr : L.Represented) (h : Host) (p : Path) : (L.tryLoad h p).2.1.Represented := by
  rcases L.tryLoad_loader h p with ⟨-, heq⟩ | ⟨infos, _, ⟨id, o, rfl⟩, -, hsome, heq⟩
  · rw [heq]; exact hr
  · rw [heq]
    refine hr.registered ⟨hsome, fun n hn => ?_⟩ fun info hinfo => ?_
    · obtain ⟨info, hinfo, rfl⟩ := mem_plugins_record.1 hn
      exact (canonical_of_accepted hinfo).1
    · exact ⟨mem_plugins_record.2 ⟨info, hinfo, rfl⟩, canonical_of_accepted hinfo⟩

/-! ## Forgetting -/

theorem remove (hr : L.Represented) (key : Path) : (L.remove key).Represented := by
  have hindex : ∀ e ∈ (L.remove key).index, e ∈ L.index := fun e he => (List.mem_filter.1 he).1
  have htable : ∀ e ∈ (L.remove key).libraries, e ∈ L.libraries := fun e he => (List.mem_filter.1 he).1
  refine ⟨fun e he => hr.name e (hindex e he), fun e he => hr.canonical e (hindex e he),
    fun e he => hr.interfaces e (hindex e he), fun e he => hr.path e (htable e he),
    fun e he => hr.indexed e (hindex e he), fun e he => hr.filed e (htable e he),
    fun e he => hr.own e (hindex e he), fun e he => ?_⟩
  -- the key that goes is not the path of a library whose plugins stay
  have hother : ¬ (e.2.library.path == key) = true := by simpa using (List.mem_filter.1 he).2
  have hkey : ¬ (key == e.2.library.path) = true := fun h => hother (BEq.symm h)
  simp only [Loader.remove, contains, find?_erase, hkey]
  exact hr.listed e (hindex e he)

/-! ## What is answered -/

theorem exists_listed (hr : L.Represented) {plugin : String} {path : Path}
    (hpath : L.libraryOf plugin = some path) : ∃ l ∈ L.listed, (l.path == path) = true := by
  obtain ⟨e, he, rfl⟩ := Option.map_eq_some_iff.1 hpath
  obtain ⟨n, hn, -⟩ := exists_mem_of_find? he
  obtain ⟨l, hl⟩ := Option.isSome_iff_exists.1 (hr.listed (n, e) hn)
  obtain ⟨k, hk, hkey⟩ := exists_mem_of_find? hl
  refine ⟨l, List.mem_mergeSort.2 (List.mem_map_of_mem hk), ?_⟩
  exact BEq.trans (BEq.symm (hr.path (k, l) hk)) hkey

end Represented

theorem represented_after {L : Loader} (hr : L.Represented) (operations : List (Host × Operation)) :
    (L.after operations).Represented :=
  after_induction (fun _ h p hr => hr.tryLoad h p) (fun _ key hr => hr.remove key) hr operations

end Loader

end PluginHost
