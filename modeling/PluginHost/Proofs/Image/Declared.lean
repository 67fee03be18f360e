import Mathlib.Data.List.Forall2
import PluginHost.Instance
import PluginHost.Proofs.Capability.Set
import PluginHost.Proofs.Image.Enumeration
import PluginHost.Proofs.Image.Exported
import PluginHost.Proofs.Text.Utf8

/-!
# What library authors declare

The authors of a library list its plugins, each with a name and interfaces. Their library exports a
descriptor for each plugin, with the name as it was written, a cast function for every interface, and a
factory for cells that publish at least these interfaces. What a host reads from it is what was declared,
in canonical spelling.

* `Declaration`: a plugin as its authors declare it.
* `Descriptor.Declares`, `Image.Declares`: what a library exports for declarations.
* `PluginInfo.Reflects`: what a host keeps of a declaration.
* `negotiate_of_declares`: every declaration is read, in order.
* `Instance.isSome_find?_of_reflects`: an instance provides what was listed and nothing else.
-/

namespace PluginHost

set_option autoImplicit false

open PluginHost.Text

/-! ## Declarations -/

/-- A plugin as its authors declare it: the name it is exported under and the interfaces it lists. -/
structure Declaration where
  name : String
  interfaces : List Interface
  deriving Repr, DecidableEq

namespace Declaration

def key (d : Declaration) : String := Name.normalize d.name

/-- Whether an interface with a spelling of this name is listed. -/
def lists (d : Declaration) (name : String) : Bool :=
  d.interfaces.any fun i => i.key == Name.normalize name

/-- No name is empty. -/
structure Named (d : Declaration) : Prop where
  name : d.name ≠ ""
  interfaces : ∀ i ∈ d.interfaces, i.name ≠ ""

theorem lists_iff {d : Declaration} {name : String} :
    d.lists name = true ↔ ∃ i ∈ d.interfaces, i.key = Name.normalize name := by
  simp [lists]

end Declaration

/-- A descriptor for a declaration. -/
structure Descriptor.Declares (row : Descriptor) (d : Declaration) : Prop where
  name : row.name = some (Utf8.encode d.name)
  interfaces : row.interfaces =
    some (d.interfaces.map fun i => ⟨some (Utf8.encode i.name), some i⟩)
  factory : ∃ f provides, row.factory = some f ∧ f.product = .cell provides ∧
    ∀ i ∈ d.interfaces, i ∈ provides
  deleter : row.hasDeleter = true

/-- A library of the current version with one descriptor for each declaration, in their order. -/
structure Image.Declares (image : Image) (plugins : List Declaration) : Prop where
  version : image.version = some Abi.currentVersion
  infoSize : image.infoSize = some Abi.descriptorSize
  rows : ∃ rows, image.multi = some ⟨rows, none⟩ ∧ List.Forall₂ Descriptor.Declares rows plugins

/-- What is registered in `scope` is declared under the names in this scope. -/
theorem Image.declares_ofRegistered (id scope : String) (plugins : List Export.Registered) :
    (Image.ofRegistered id scope plugins).Declares
      (plugins.map fun r => ⟨r.name scope, r.interfaces⟩) where
  version := rfl
  infoSize := rfl
  rows := by
    refine ⟨_, rfl, List.forall₂_iff_get.2 ⟨by simp [Export.table], fun i hrow hplugin => ?_⟩⟩
    simp only [Export.table, List.get_eq_getElem, List.getElem_mapIdx, List.getElem_map]
    exact ⟨rfl, rfl, ⟨_, _, rfl, rfl, fun _ hi => hi⟩, rfl⟩

/-! ## Reading a declaration -/

namespace PluginInfo

theorem readName_encode {s : String} (hs : s ≠ "") : readName (some (Utf8.encode s)) = some s := by
  cases hbytes : Utf8.encode s with
  | nil => exact absurd (Utf8.encode_eq_nil.1 hbytes) hs
  | cons b bs =>
    show some (Utf8.decodeLossy (b :: bs)) = some s
    rw [← hbytes, Utf8.decodeLossy_encode]

theorem readEntry_encode {i : Interface} (hi : i.name ≠ "") :
    readEntry ⟨some (Utf8.encode i.name), some i⟩ = some (i.name, .cast i) := by
  simp only [readEntry, readName_encode hi]

/-- What a host keeps of a declaration: all names are canonical, the interfaces are those that were listed,
each is reached by the cast function of one of them, and every instance publishes all of them. -/
structure Reflects (info : PluginInfo) (d : Declaration) : Prop where
  name : info.name = d.key
  interfaces : ∀ n, n ∈ info.interfaceNames ↔ n ∈ d.interfaces.map Interface.key
  casters : ∀ e ∈ info.interfaces, ∃ i ∈ d.interfaces, e.2 = .cast i
  factory : ∃ provides, info.factory.product = .cell provides ∧ ∀ i ∈ d.interfaces, i ∈ provides

theorem reflects_of_declares {row : Descriptor} {d : Declaration} (h : row.Declares d) (hd : d.Named) :
    ∃ info, (ofDescriptor row).2 = some info ∧ info.normalized.Reflects d := by
  obtain ⟨f, provides, hf, hproduct, hprovides⟩ := h.factory
  have hentries : (d.interfaces.map fun i =>
      (⟨some (Utf8.encode i.name), some i⟩ : InterfaceEntry)).filterMap readEntry =
        d.interfaces.map fun i => (i.name, Caster.cast i) := by
    rw [List.filterMap_map, ← List.filterMap_eq_map]
    exact List.filterMap_congr fun i hi => readEntry_encode (hd.interfaces i hi)
  refine ⟨⟨d.name, Ordered.putAll (d.interfaces.map fun i => (i.name, .cast i)), f, .plugin⟩, ?_, ?_⟩
  · simp only [ofDescriptor, h.name, readName_encode hd.name, hf, h.deleter, h.interfaces,
      Option.getD_some, hentries]
  · refine ⟨rfl, fun n => ?_, fun e he => ?_, provides, hproduct, hprovides⟩
    · have hwritten : ∀ k, k ∈ (Ordered.putAll (d.interfaces.map fun i =>
          (i.name, Caster.cast i))).map Prod.fst ↔ k ∈ d.interfaces.map Interface.name := by
        intro k
        rw [Ordered.mem_keys_putAll, List.map_map]
        rfl
      have hkeys : d.interfaces.map Interface.key =
          (d.interfaces.map Interface.name).map Name.normalize := by
        rw [List.map_map]
        rfl
      rw [mem_interfaceNames_normalized, hkeys, List.mem_map, List.mem_map]
      exact exists_congr fun k => and_congr_left fun _ => hwritten k
    · obtain ⟨e', he', rfl⟩ := List.mem_map.1 (Ordered.mem_of_mem_putAll he)
      obtain ⟨i, hi, rfl⟩ := List.mem_map.1 (Ordered.mem_of_mem_putAll he')
      exact ⟨i, hi, rfl⟩

theorem Reflects.implements_eq {info : PluginInfo} {d : Declaration} (h : info.Reflects d) (name : String) :
    info.implements name = d.lists name := by
  have hsame : info.implements name = true ↔ d.lists name = true := by
    rw [implements_iff, Declaration.lists_iff]
    exact (h.interfaces (Name.normalize name)).trans List.mem_map
  exact Bool.eq_iff_iff.2 hsame

end PluginInfo

/-! ## Instances -/

/-- An instance of a plugin provides the interfaces that were listed for it, in any spelling, and no other. -/
theorem Instance.isSome_find?_of_reflects {x : Instance} {d : Declaration} (h : x.info.Reflects d)
    (name : String) : (x.find? name).isSome = d.lists name := by
  rw [← h.implements_eq name, PluginInfo.implements, Instance.find?]
  cases hcaster : x.info.caster name with
  | none => rfl
  | some c =>
    obtain ⟨i, hi, rfl⟩ := h.casters _ (Ordered.mem_of_find? hcaster)
    obtain ⟨provides, hproduct, hprovides⟩ := h.factory
    have hpublished := CapabilitySet.find?_ofInterfaces_iff.2 ⟨rfl, hprovides i hi⟩
    simp only [Option.bind_some, follow, published, hproduct, Product.published, Option.isSome_map,
      hpublished, Option.isSome_some]

/-! ## Reading a library -/

theorem PluginInfo.forall₂_reflects {rows : List Descriptor} {plugins : List Declaration}
    (h : List.Forall₂ Descriptor.Declares rows plugins) (hnamed : ∀ d ∈ plugins, d.Named) :
    List.Forall₂ Reflects
      ((rows.filterMap fun row => (ofDescriptor row).2).map normalized) plugins := by
  induction h with
  | nil => exact .nil
  | cons hrow _ ih =>
    obtain ⟨info, hinfo, hreflects⟩ := reflects_of_declares hrow (hnamed _ List.mem_cons_self)
    simp only [List.filterMap_cons, hinfo, List.map_cons]
    exact .cons hreflects (ih fun d hd => hnamed d (List.mem_cons_of_mem _ hd))

/-- Every declaration is read from its descriptor. -/
theorem negotiate_of_declares {image : Image} {plugins : List Declaration} (h : image.Declares plugins)
    (hsome : plugins ≠ []) (hnamed : ∀ d ∈ plugins, d.Named) :
    ∃ n, (negotiate image.exports).2 = .ok n ∧
      List.Forall₂ PluginInfo.Reflects (n.infos.map PluginInfo.normalized) plugins := by
  obtain ⟨rows, hmulti, hrows⟩ := h.rows
  have hread := PluginInfo.forall₂_reflects hrows hnamed
  rw [← (DescriptorTable.served rows).infos] at hread
  have hnonempty : ((readCurrent (⟨rows, none⟩ : DescriptorTable).describe).2).isEmpty = false := by
    rw [List.isEmpty_eq_false_iff]
    intro hnil
    rw [hnil, List.map_nil, List.forall₂_nil_left_iff] at hread
    exact hsome hread
  refine ⟨⟨Abi.currentVersion, (readCurrent (⟨rows, none⟩ : DescriptorTable).describe).2⟩, ?_, hread⟩
  simp [negotiate, Image.exports, h.version, h.infoSize, hmulti, readVersion, settle, hnonempty]

end PluginHost
