import PluginHost.Proofs.Loader.Index
import PluginHost.Proofs.Loader.Soundness

/-!
# Known plugins are backed

For every known plugin, the image that its library was read from is in memory and offers the plugin. A
reload may bring other plugins under the same path; an index entry that stays refers to its old library
and so to the image that it came from.

* `Loader.Backed`: every known plugin is backed by its library.
* `Loader.Backed.load`, `Loader.Backed.forget`, …: the operations keep it so.
* `Loader.sound_instantiate`: hence a factory is called only while its code is there.
-/

namespace PluginHost.Loader

set_option autoImplicit false

open PluginHost.Table

/-- Every known plugin is backed by its library. -/
def Backed (L : Loader) (h : Host) : Prop :=
  ∀ n e, L.index.find? n = some e → h.Backs e.info e.library

theorem backed_withConfig (config : Config) (h : Host) : (withConfig config).Backed h := by
  intro n e he
  simp [withConfig] at he

theorem mem_references {L : Loader} {l : Library} :
    l ∈ L.references ↔ (∃ e ∈ L.libraries, e.2 = l) ∨ ∃ e ∈ L.index, e.2.library = l := by
  simp only [references, Multiset.mem_add, Multiset.mem_map, mem_bag, values, List.mem_map]
  constructor
  · rintro (⟨e, he, rfl⟩ | ⟨_, ⟨e, he, rfl⟩, rfl⟩)
    · exact .inl ⟨e, he, rfl⟩
    · exact .inr ⟨e, he, rfl⟩
  · rintro (⟨e, he, rfl⟩ | ⟨e, he, rfl⟩)
    · exact .inl ⟨e, he, rfl⟩
    · exact .inr ⟨e.2, ⟨e, he, rfl⟩, rfl⟩

theorem mem_references_of_index {L : Loader} {n : String} {e : IndexEntry}
    (he : L.index.find? n = some e) : e.library ∈ L.references :=
  Multiset.mem_add.2 (.inr (Multiset.mem_map_of_mem _ (mem_bag.2 (mem_values_of_find? he))))

theorem mem_references_of_table {L : Loader} {p : Path} {l : Library}
    (hl : L.libraries.find? p = some l) : l ∈ L.references :=
  Multiset.mem_add.2 (.inl (mem_bag.2 (mem_values_of_find? hl)))

theorem mem_references_iff {L : Loader} (hl : L.libraries.Distinct) (hi : L.index.Distinct)
    {l : Library} : l ∈ L.references ↔ (∃ q, L.libraries.find? q = some l) ∨
      ∃ n e, L.index.find? n = some e ∧ e.library = l := by
  rw [references, Multiset.mem_add, mem_bag_iff_find? hl, Multiset.mem_map]
  constructor
  · rintro (h | ⟨e, he, rfl⟩)
    · exact .inl h
    · obtain ⟨n, hn⟩ := (mem_bag_iff_find? hi).1 he
      exact .inr ⟨n, e, hn, rfl⟩
  · rintro (h | ⟨n, e, he, rfl⟩)
    · exact .inl h
    · exact .inr ⟨e, (mem_bag_iff_find? hi).2 ⟨n, he⟩, rfl⟩

namespace Backed

variable {births : Nat → Prop} {earlier h h' : Host} {L L' : Loader} {opened opened' : Multiset Nat}
  {referred referred' : Multiset Library} {held held' : Multiset Instance}

/-- After a step it is enough that the plugins known now were backed before it. -/
theorem kept (hs : Host.Sound births earlier h opened referred held)
    (hs' : Sound births h L' h' opened' referred' held')
    (hb : ∀ n e, L'.index.find? n = some e → h.Backs e.info e.library) : L'.Backed h' := by
  intro n e he
  refine hs.backs_kept hs'.host (hb n e he) ?_
  exact Multiset.mem_add.2 (.inl (mem_references_of_index he))

/-! ## Loading -/

theorem receive {o : Origin} {v : Mapping} (hb : L.Backed h)
    (hs : Sound births earlier L h (o.mapping ::ₘ opened) referred held)
    (hv : h.mappings.find? o.mapping = some v) (p : Path) :
    (L.receive h p o v.image.exports).2.1.Backed (L.receive h p o v.image.exports).2.2 := by
  refine kept hs.host (hs.restart.receive p v.image.exports) fun n e he => ?_
  rcases L.receive_loader h p o v.image.exports with heq | ⟨read, id, hread, heq⟩
  · rw [heq] at he
    exact hb n e he
  · rw [heq] at he
    rcases find?_indexed he with ⟨hinfo, -, hlib⟩ | ⟨-, hold⟩
    · obtain ⟨info, hmem, hnorm⟩ := List.mem_map.1 (List.mem_filter.1 hinfo).1
      rw [hlib]
      exact ⟨v, hv, read, hread, info, hmem, hnorm.symm⟩
    · exact hb n e hold

theorem tryLoad (hb : L.Backed h) (hs : Sound births earlier L h opened referred held) (p : Path) :
    (L.tryLoad h p).2.1.Backed (L.tryLoad h p).2.2 := by
  unfold Loader.tryLoad
  split
  · have hopening := hs.host.restart.note (.opening p)
    simp only [Host.openLibrary]
    cases hlocate : (h.note (.opening p)).locate p with
    | none => exact kept hs.host (hs.restart.withHost hopening) hb
    | some found =>
      obtain ⟨id, v⟩ := found
      have hheld := hs.restart.withHost (hopening.hold hlocate)
      exact (kept hs.host hheld hb).receive (o := ⟨id, v.image.id, v.image.reports⟩) hheld
        (v := { v with holds := v.holds + 1 }) (find?_put_self _ _ _) p
  · exact hb

theorem load (hb : L.Backed h) (hs : Sound births earlier L h opened referred held) (p : Path) :
    (L.load h p).2.1.Backed (L.load h p).2.2 := by
  have hload := hb.tryLoad hs p
  unfold Loader.load
  split
  · next heq =>
    rw [heq] at hload
    exact hload
  · next heq =>
    rw [heq] at hload
    exact hload

theorem loadAll (hb : L.Backed h) (hs : Sound births earlier L h opened referred held)
    (paths : List Path) :
    (L.loadAll h paths).2.1.Backed (L.loadAll h paths).2.2 := by
  have hkept := loadAll_induction
    (motive := fun L h => L.Backed h ∧ Sound births earlier L h opened referred held) paths ⟨hb, hs⟩
    fun L h p hboth => ⟨hboth.1.load hboth.2 p, hboth.2.load p⟩
  exact hkept.1

/-! ## Forgetting -/

theorem forget (hb : L.Backed h) (hs : Sound births earlier L h opened referred held) (p : Path) :
    (L.forget h p).2.1.Backed (L.forget h p).2.2 := by
  refine kept hs.host (hs.restart.forget p) fun n e he => hb n e ?_
  exact find?_index_of_removed hs.index (L.forget_loader h p) he

theorem forgetOf (hb : L.Backed h) (hs : Sound births earlier L h opened referred held)
    (plugin : String) :
    (L.forgetOf h plugin).2.1.Backed (L.forgetOf h plugin).2.2 := by
  refine kept hs.host (hs.restart.forgetOf plugin) fun n e he => hb n e ?_
  exact find?_index_of_removed hs.index (L.forgetOf_loader h plugin) he

end Backed

/-! ## Instances -/

/-- A factory is called only while its code is there; what it makes has one holder. -/
theorem sound_instantiate {births : Nat → Prop} {earlier h : Host} {L : Loader} {opened : Multiset Nat}
    {referred : Multiset Library} {held : Multiset Instance}
    (hs : Sound births earlier L h opened referred held) (hb : L.Backed h) (plugin : String)
    (hbirth : ∀ x, (L.instantiate h plugin).1.held = some x → births x.id) :
    Sound births earlier L (L.instantiate h plugin).2 opened referred
      (↑(L.instantiate h plugin).1.held.toList + held) := by
  unfold instantiate at hbirth ⊢
  cases he : L.index.find? (Name.normalize plugin) with
  | some e =>
    simp only [he] at hbirth
    refine hs.withHost (hs.host.instantiate ?_ (hb _ e he) hbirth)
    exact Multiset.mem_add.2 (.inl (mem_references_of_index he))
  | none => exact hs.withHost (by simpa [Handle.empty] using hs.host.note _)

end PluginHost.Loader
