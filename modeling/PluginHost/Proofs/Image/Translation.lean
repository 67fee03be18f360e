import Mathlib.Data.Finset.Card
import PluginHost.Proofs.Image.Exported
import PluginHost.Proofs.Name.Canonical
import PluginHost.Proofs.Text.Order

/-!
# From descriptors to plugins

A descriptor can be used when it has a name, a factory and a deleter. Of its table those entries count that
have a name and a cast function. Two names are one when they have the same canonical spelling; then the one
that comes last in the order of octets decides, and if it is listed several times, its last entry.

* `Descriptor.Usable`: what makes a descriptor one that can be used.
* `Descriptor.Keeps`: the cast function that stays for a canonical name.
* `Descriptor.Gives`: the plugin of a descriptor, with its names in canonical spelling.
* `Descriptor.translated`: every descriptor is read this way.
-/

namespace PluginHost

set_option autoImplicit false

open PluginHost.Text

/-! ## What is in a descriptor -/

/-- The entry has a name, which is read as `name`, and its cast function looks for `i`. -/
structure InterfaceEntry.Means (e : InterfaceEntry) (name : String) (i : Interface) : Prop where
  name : ∃ b bytes, e.name = some (b :: bytes) ∧ name = Utf8.decodeLossy (b :: bytes)
  cast : e.cast = some i

namespace Descriptor

def entries (d : Descriptor) : List InterfaceEntry := d.interfaces.getD []

structure Usable (d : Descriptor) : Prop where
  name : ∃ b bytes, d.name = some (b :: bytes)
  factory : d.factory ≠ none
  deleter : d.hasDeleter = true

/-- Some entry of the table has a name with this canonical spelling, and a cast function. -/
def Names (d : Descriptor) (key : String) : Prop :=
  ∃ e ∈ d.entries, ∃ name i, e.Means name i ∧ Name.normalize name = key

/-- Among the entries for `key`, the last one with the greatest spelling has the cast function for `i`. -/
def Keeps (d : Descriptor) (key : String) (i : Interface) : Prop :=
  ∃ before e after name, d.entries = before ++ e :: after ∧ e.Means name i ∧ Name.normalize name = key ∧
    (∀ e' ∈ after, ∀ i', ¬ e'.Means name i') ∧
    ∀ e' ∈ d.entries, ∀ name' i', e'.Means name' i' → Name.normalize name' = key →
      Utf8.encode name' ≤ Utf8.encode name

/-- The plugin is what the descriptor says, with its names in canonical spelling. -/
structure Gives (d : Descriptor) (info : PluginInfo) : Prop where
  name : ∃ bytes, d.name = some bytes ∧ info.name = Name.normalize (Utf8.decodeLossy bytes)
  factory : d.factory = some info.factory
  interfaces : ∀ key, key ∈ info.interfaceNames ↔ d.Names key
  sorted : info.interfaceNames.Pairwise fun a b => Utf8.encode a < Utf8.encode b
  count : ∃ keys : Finset String, (∀ key, key ∈ keys ↔ d.Names key) ∧ info.interfaceCount = keys.card
  caster : ∀ interface c,
    info.caster interface = some c ↔ ∃ i, c = .cast i ∧ d.Keeps (Name.normalize interface) i
  again : info.normalized = info

end Descriptor

/-! ## Entries -/

namespace PluginInfo

theorem readName_eq_some_iff {name : Option (List UInt8)} {text : String} :
    readName name = some text ↔ ∃ b bytes, name = some (b :: bytes) ∧ text = Utf8.decodeLossy (b :: bytes) := by
  rcases name with - | - | ⟨b, bytes⟩
  · simp [readName]
  · simp [readName]
  · constructor
    · intro h
      exact ⟨b, bytes, rfl, (Option.some.inj h).symm⟩
    · rintro ⟨b', bytes', heq, rfl⟩
      rw [heq]
      rfl

theorem readEntry_eq_some_iff {e : InterfaceEntry} {name : String} {c : Caster} :
    readEntry e = some (name, c) ↔ ∃ i, e.Means name i ∧ c = .cast i := by
  have hmeans : ∀ i, e.Means name i ↔ readName e.name = some name ∧ e.cast = some i := fun i =>
    ⟨fun h => ⟨readName_eq_some_iff.2 h.name, h.cast⟩, fun h => ⟨readName_eq_some_iff.1 h.1, h.2⟩⟩
  simp only [hmeans, readEntry]
  cases readName e.name with
  | none => simp
  | some text =>
    cases e.cast with
    | none => simp
    | some i => simp [eq_comm]

/-- The last of the lines with a name is the last entry that is read as it. -/
theorem last_line_iff {entries : List InterfaceEntry} {name : String} {c : Caster} :
    (∃ before after, entries.filterMap readEntry = before ++ (name, c) :: after ∧
        name ∉ after.map Prod.fst) ↔
      ∃ before e after, entries = before ++ e :: after ∧ readEntry e = some (name, c) ∧
        ∀ e' ∈ after, ∀ c', readEntry e' ≠ some (name, c') := by
  constructor
  · rintro ⟨before, after, heq, hafter⟩
    obtain ⟨first, rest, rfl, -, hrest⟩ := List.filterMap_eq_append_iff.1 heq
    obtain ⟨dropped, e, last, rfl, -, hread, rfl⟩ := List.filterMap_eq_cons_iff.1 hrest
    refine ⟨first ++ dropped, e, last, by simp, hread, fun e' he' c' hagain => hafter ?_⟩
    exact List.mem_map.2 ⟨(name, c'), List.mem_filterMap.2 ⟨e', he', hagain⟩, rfl⟩
  · rintro ⟨before, e, after, rfl, hread, hafter⟩
    refine ⟨before.filterMap readEntry, after.filterMap readEntry, ?_, fun hagain => ?_⟩
    · rw [List.filterMap_append, List.filterMap_cons_some hread]
    · obtain ⟨⟨_, c'⟩, hline, rfl⟩ := List.mem_map.1 hagain
      obtain ⟨e', he', hread'⟩ := List.mem_filterMap.1 hline
      exact hafter e' he' c' hread'

/-! ## Canonical spelling -/

theorem interfaceNames_normalized_sorted (info : PluginInfo) :
    info.normalized.interfaceNames.Pairwise (· < ·) := Ordered.sorted_putAll _

/-- What is in canonical spelling stays as it is. -/
theorem normalized_normalized (info : PluginInfo) : info.normalized.normalized = info.normalized := by
  have hkey : ∀ e ∈ info.normalized.interfaces, (Name.normalize e.1, e.2) = e := by
    intro e he
    have hmem : e.1 ∈ info.normalized.interfaceNames := List.mem_map_of_mem he
    obtain ⟨name, -, heq⟩ := List.mem_map.1 (mem_interfaceNames_normalized.1 hmem)
    rw [← heq, Name.normalize_normalize, heq]
  have hmap : info.normalized.interfaces.map (fun e => (Name.normalize e.1, e.2)) =
      info.normalized.interfaces := by
    rw [List.map_congr_left hkey, List.map_id']
  calc info.normalized.normalized
      = ⟨Name.normalize (Name.normalize info.name),
          Ordered.putAll (info.normalized.interfaces.map fun e => (Name.normalize e.1, e.2)),
          info.factory, info.deleter⟩ := rfl
    _ = info.normalized := by
      rw [hmap, Ordered.putAll_of_sorted info.interfaceNames_normalized_sorted, Name.normalize_normalize]
      rfl

/-! ## Descriptors -/

variable {d : Descriptor} {info : PluginInfo}

theorem ofDescriptor_eq_some_iff : (ofDescriptor d).2 = some info ↔
    readName d.name = some info.name ∧ d.factory = some info.factory ∧ d.hasDeleter = true ∧
      info.interfaces = Ordered.putAll (d.entries.filterMap readEntry) ∧ info.deleter = .plugin := by
  obtain ⟨name, interfaces, factory, hasDeleter⟩ := d
  obtain ⟨text, kept, maker, deleter⟩ := info
  simp only [ofDescriptor, Descriptor.entries]
  cases readName name with
  | none => simp
  | some found =>
    cases factory with
    | none => simp
    | some made =>
      cases hasDeleter with
      | false => simp
      | true =>
        simp only [Option.some.injEq, PluginInfo.mk.injEq, true_and]
        constructor
        · rintro ⟨rfl, rfl, rfl, rfl⟩
          exact ⟨rfl, rfl, rfl, rfl⟩
        · rintro ⟨rfl, rfl, rfl, rfl⟩
          exact ⟨rfl, rfl, rfl, rfl⟩

theorem usable_iff : (ofDescriptor d).2.isSome = true ↔ d.Usable := by
  constructor
  · intro h
    obtain ⟨info, hinfo⟩ := Option.isSome_iff_exists.1 h
    obtain ⟨hname, hfactory, hdeleter, -, -⟩ := ofDescriptor_eq_some_iff.1 hinfo
    obtain ⟨b, bytes, hbytes, -⟩ := readName_eq_some_iff.1 hname
    exact ⟨⟨b, bytes, hbytes⟩, by rw [hfactory]; exact Option.some_ne_none _, hdeleter⟩
  · rintro ⟨⟨b, bytes, hbytes⟩, hfactory, hdeleter⟩
    obtain ⟨factory, hmade⟩ := Option.ne_none_iff_exists'.1 hfactory
    refine Option.isSome_iff_exists.2
      ⟨⟨Utf8.decodeLossy (b :: bytes), Ordered.putAll (d.entries.filterMap readEntry), factory, .plugin⟩, ?_⟩
    exact ofDescriptor_eq_some_iff.2 ⟨by rw [hbytes]; rfl, hmade, hdeleter, rfl, rfl⟩

theorem mem_lines_iff {name : String} :
    name ∈ (d.entries.filterMap readEntry).map Prod.fst ↔ ∃ e ∈ d.entries, ∃ i, e.Means name i := by
  simp only [List.mem_map, List.mem_filterMap]
  constructor
  · rintro ⟨⟨_, c⟩, ⟨e, he, hread⟩, rfl⟩
    obtain ⟨i, hmeans, -⟩ := readEntry_eq_some_iff.1 hread
    exact ⟨e, he, i, hmeans⟩
  · rintro ⟨e, he, i, hmeans⟩
    exact ⟨(name, .cast i), ⟨e, he, readEntry_eq_some_iff.2 ⟨i, hmeans, rfl⟩⟩, rfl⟩

theorem mem_interfaceNames_iff (h : (ofDescriptor d).2 = some info) {key : String} :
    key ∈ info.normalized.interfaceNames ↔ d.Names key := by
  obtain ⟨-, -, -, hkept, -⟩ := ofDescriptor_eq_some_iff.1 h
  have hnames : ∀ name, name ∈ info.interfaceNames ↔ ∃ e ∈ d.entries, ∃ i, e.Means name i := by
    intro name
    rw [interfaceNames, hkept, Ordered.mem_keys_putAll]
    exact mem_lines_iff
  rw [mem_interfaceNames_normalized, List.mem_map]
  constructor
  · rintro ⟨name, hname, rfl⟩
    obtain ⟨e, he, i, hmeans⟩ := (hnames name).1 hname
    exact ⟨e, he, name, i, hmeans, rfl⟩
  · rintro ⟨e, he, name, i, hmeans, rfl⟩
    exact ⟨name, (hnames name).2 ⟨e, he, i, hmeans⟩, rfl⟩

/-- The cast function that stays for a canonical name. -/
theorem caster_normalized_iff (h : (ofDescriptor d).2 = some info) {interface : String} {c : Caster} :
    info.normalized.caster interface = some c ↔
      ∃ i, c = .cast i ∧ d.Keeps (Name.normalize interface) i := by
  obtain ⟨-, -, -, hkept, -⟩ := ofDescriptor_eq_some_iff.1 h
  have hsorted : (info.interfaces.map Prod.fst).Pairwise (· < ·) := by
    rw [hkept]
    exact Ordered.sorted_putAll _
  -- the line that is kept for a spelling is the last of its entries
  have hline : ∀ name, (name, c) ∈ info.interfaces ↔
      ∃ before e after, d.entries = before ++ e :: after ∧ readEntry e = some (name, c) ∧
        ∀ e' ∈ after, ∀ c', readEntry e' ≠ some (name, c') := by
    intro name
    rw [Ordered.mem_iff_find?_of_sorted hsorted, hkept, Ordered.find?_putAll_eq_some_iff]
    exact last_line_iff
  have hspelling : ∀ name, name ∈ info.interfaces.map Prod.fst ↔ ∃ e ∈ d.entries, ∃ i, e.Means name i := by
    intro name
    rw [hkept, Ordered.mem_keys_putAll]
    exact mem_lines_iff
  rw [caster, normalized, Ordered.find?_putAll_map_iff hsorted]
  constructor
  · rintro ⟨name, hmem, hname, hgreatest⟩
    obtain ⟨before, e, after, hentries, hread, hlast⟩ := (hline name).1 hmem
    obtain ⟨i, hmeans, rfl⟩ := readEntry_eq_some_iff.1 hread
    refine ⟨i, rfl, before, e, after, name, hentries, hmeans, hname, fun e' he' i' hagain => ?_, ?_⟩
    · exact hlast e' he' (.cast i') (readEntry_eq_some_iff.2 ⟨i', hagain, rfl⟩)
    · intro e' he' name' i' hother hsame
      obtain ⟨kept, hkeptmem, rfl⟩ := List.mem_map.1 ((hspelling name').2 ⟨e', he', i', hother⟩)
      exact Utf8.encode_le_encode_iff.2 (hgreatest kept hkeptmem hsame)
  · rintro ⟨i, rfl, before, e, after, name, hentries, hmeans, hname, hlast, hgreatest⟩
    refine ⟨name, (hline name).2 ⟨before, e, after, hentries, ?_, fun e' he' c' hagain => ?_⟩, hname, ?_⟩
    · exact readEntry_eq_some_iff.2 ⟨i, hmeans, rfl⟩
    · obtain ⟨i', hother, -⟩ := readEntry_eq_some_iff.1 hagain
      exact hlast e' he' i' hother
    · intro kept hkeptmem hsame
      obtain ⟨e', he', i', hother⟩ := (hspelling kept.1).1 (List.mem_map_of_mem hkeptmem)
      exact Utf8.encode_le_encode_iff.1 (hgreatest e' he' kept.1 i' hother hsame)

/-- The names are listed once each, so there are as many as lines. -/
theorem interfaceCount_normalized (h : (ofDescriptor d).2 = some info) :
    ∃ keys : Finset String, (∀ key, key ∈ keys ↔ d.Names key) ∧
      info.normalized.interfaceCount = keys.card := by
  have hnodup : info.normalized.interfaceNames.Nodup := by
    refine (interfaceNames_normalized_sorted info).imp fun hlt heq => ?_
    subst heq
    exact String.lt_irrefl _ hlt
  refine ⟨info.normalized.interfaceNames.toFinset, fun key => ?_, ?_⟩
  · rw [List.mem_toFinset]
    exact mem_interfaceNames_iff h
  · rw [List.toFinset_card_of_nodup hnodup, interfaceNames, List.length_map, interfaceCount]

end PluginInfo

namespace Descriptor

theorem gives_of_ofDescriptor {d : Descriptor} {info : PluginInfo}
    (h : (PluginInfo.ofDescriptor d).2 = some info) : d.Gives info.normalized := by
  obtain ⟨hname, hfactory, -, -, -⟩ := PluginInfo.ofDescriptor_eq_some_iff.1 h
  obtain ⟨b, bytes, hbytes, htext⟩ := PluginInfo.readName_eq_some_iff.1 hname
  exact {
    name := ⟨b :: bytes, hbytes, congrArg Name.normalize htext⟩
    factory := hfactory
    interfaces := fun key => PluginInfo.mem_interfaceNames_iff h
    sorted := info.interfaceNames_normalized_sorted.imp Utf8.encode_lt_of_lt
    count := PluginInfo.interfaceCount_normalized h
    caster := fun interface c => PluginInfo.caster_normalized_iff h
    again := info.normalized_normalized }

/-- How a descriptor is read: it is used or not, and this is the plugin that it gives. -/
structure Translated (d : Descriptor) : Prop where
  usable : (PluginInfo.ofDescriptor d).2.isSome = true ↔ d.Usable
  each : ∀ info, (PluginInfo.ofDescriptor d).2 = some info → d.Gives info.normalized

theorem translated (d : Descriptor) : d.Translated where
  usable := PluginInfo.usable_iff
  each _ := gives_of_ofDescriptor

-- `a` is greater than `::a`, and its last line has the cast function for doubles
example : (PluginInfo.ofDescriptor ⟨some [112],
      some [⟨some [97], some Catalog.intBase⟩, ⟨some [97], some Catalog.doubleBase⟩,
        ⟨some [58, 58, 97], some Catalog.nameBase⟩, ⟨some [98], none⟩],
      some ⟨"t", .nothing, .named "t"⟩, true⟩).2.map (fun info => info.normalized.interfaces) =
    some [("::a", .cast Catalog.doubleBase)] := by decide

end Descriptor

end PluginHost
