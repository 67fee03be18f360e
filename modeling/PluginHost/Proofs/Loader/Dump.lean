import PluginHost.Proofs.Image.Translation
import PluginHost.Proofs.Loader.Query
import PluginHost.Proofs.Loader.Report

/-!
# The written form of an index

What is written is the report of the index: the known interfaces, and the plugins with the interfaces that
they list, each in order. The report is read back from the text, and it says which plugins are known and which
interfaces each of them lists, and nothing else.

* `Loader.Orderly`: what loading and forgetting lead to.
* `Loader.report`, `Loader.read_dump`: the report, and that it is read back.
* `Loader.Legible`: what a text says about its loader, and about itself.
* `Loader.SameNames`, `Loader.Orderly.dump_eq_iff`: when two texts are equal.
-/

namespace PluginHost.Loader

set_option autoImplicit false

open PluginHost.Table PluginHost.Text

variable {L L' : Loader} {info : PluginInfo} {p : String}

/-! ## Order of the interfaces -/

/-- Every known plugin lists its interfaces in order. -/
def Sorted (L : Loader) : Prop := ∀ e ∈ L.index, e.2.info.interfaceNames.Pairwise (· < ·)

theorem sorted_withConfig (config : Config) : (withConfig config).Sorted := fun _ he => by
  simp [withConfig] at he

theorem Sorted.tryLoad (hs : L.Sorted) (h : Host) (p : Path) : (L.tryLoad h p).2.1.Sorted := by
  rcases L.tryLoad_loader h p with ⟨-, heq⟩ | ⟨infos, _, -, -, -, heq⟩
  · rw [heq]
    exact hs
  · rw [heq]
    intro e he
    rcases mem_indexed he with ⟨info, hinfo, rfl⟩ | hold
    · obtain ⟨raw, -, rfl⟩ := List.mem_map.1 (List.mem_filter.1 hinfo).1
      exact raw.interfaceNames_normalized_sorted
    · exact hs e hold

theorem Sorted.remove (hs : L.Sorted) (key : Path) : (L.remove key).Sorted := fun e he =>
  hs e (List.mem_filter.1 he).1

/-- What loading and forgetting lead to: every plugin stands once, under its canonical name, with its
interfaces in order. -/
structure Orderly (L : Loader) : Prop where
  represented : L.Represented
  distinct : L.index.Distinct
  sorted : L.Sorted

theorem Sorted.of_mem_infos (hs : L.Sorted) (h : info ∈ L.infos) :
    info.interfaceNames.Pairwise (· < ·) := by
  obtain ⟨_, hvalue, rfl⟩ := List.mem_map.1 h
  obtain ⟨e, he, rfl⟩ := List.mem_map.1 hvalue
  exact hs e he

/-! ## What is written -/

def report (L : Loader) : Report where
  interfaceCount := L.interfacesImplemented.length
  interfaces := L.interfacesImplemented
  pluginCount := L.orderedInfos.length
  blocks := L.orderedInfos.map fun info => ⟨info.name, info.interfaceCount, info.interfaceNames⟩

/-- What a line of an outline is written as. -/
def ended (l : Line) : List Char := l.chars ++ ['\n']

theorem toList_line (depth : Nat) {text : String} {words : List String}
    (h : text.toList = [' '].intercalate (words.map String.toList)) :
    (line depth text).toList = ended ⟨depth, words⟩ := by
  rw [line, String.toList_append, String.toList_append, String.toList_ofList, h]
  rfl

theorem toList_word (depth : Nat) (word : String) : (line depth word).toList = ended ⟨depth, [word]⟩ :=
  toList_line depth (by simp [List.intercalate])

theorem toList_pluginLines (info : PluginInfo) :
    (pluginLines info).flatMap String.toList =
      (Block.lines ⟨info.name, info.interfaceCount, info.interfaceNames⟩).flatMap ended := by
  have hhead : (info.display ++ ":").toList = [' '].intercalate
      (["[" ++ info.name ++ "]", "which", "implements", toString info.interfaceCount,
        if info.interfaceCount = 1 then "interface:" else "interfaces:"].map String.toList) := by
    unfold PluginInfo.display
    split <;> simp [List.intercalate]
  rw [pluginLines, Block.lines, List.flatMap_cons, List.flatMap_cons, toList_line 2 hhead, List.flatMap_map,
    List.flatMap_map]
  simp only [toList_word]

theorem toList_dump (L : Loader) : L.dump.toList = L.report.lines.flatMap ended := by
  have hinterfaces : ("Known Interfaces: " ++ toString L.interfacesImplemented.length).toList =
      [' '].intercalate (["Known", "Interfaces:", toString L.interfacesImplemented.length].map String.toList) := by
    simp [List.intercalate]
  have hplugins : ("Known Plugins: " ++ toString L.orderedInfos.length).toList =
      [' '].intercalate (["Known", "Plugins:", toString L.orderedInfos.length].map String.toList) := by
    simp [List.intercalate]
  have htitle : "PluginLoader State".toList = [' '].intercalate (["PluginLoader", "State"].map String.toList) := by
    decide
  rw [dump, String.toList_join]
  simp only [List.flatMap_append, List.flatMap_cons, List.flatMap_nil, List.flatMap_map, List.flatMap_assoc,
    toList_pluginLines, toList_word, toList_line 0 htitle, toList_line 1 hinterfaces, toList_line 1 hplugins,
    Report.lines, Report.title, report]
  simp only [List.append_assoc, List.append_nil]

/-! ## What is read -/

theorem solid_toString (n : Nat) : Solid (toString n) := by
  intro c hc
  rw [Nat.toString_eq_repr, Nat.toList_repr] at hc
  have hdigit : c.isDigit = true := Nat.isDigit_of_mem_toDigits (by decide) (by decide) hc
  obtain ⟨hlow, hhigh⟩ : 48 ≤ c.toNat ∧ c.toNat ≤ 57 := by
    simpa [Char.isDigit, UInt32.le_iff_toNat_le] using hdigit
  simp [isBlank, inRanges, blankRanges]
  omega

theorem solid_append {s t : String} (hs : Solid s) (ht : Solid t) : Solid (s ++ t) := by
  intro c hc
  rw [String.toList_append] at hc
  rcases List.mem_append.1 hc with hc | hc
  · exact hs c hc
  · exact ht c hc

theorem Represented.solid_of_mem_infos (hr : L.Represented) (h : info ∈ L.infos) :
    Solid info.name ∧ ∀ i ∈ info.interfaceNames, Solid i := by
  obtain ⟨_, hvalue, rfl⟩ := List.mem_map.1 h
  obtain ⟨e, he, rfl⟩ := List.mem_map.1 hvalue
  refine ⟨?_, fun i hi => ?_⟩
  · rw [hr.name e he]
    exact (hr.canonical e he).2
  · obtain ⟨entry, hentry, rfl⟩ := List.mem_map.1 hi
    exact (hr.interfaces e he entry hentry).2

theorem mem_infos_of_mem_orderedInfos (h : info ∈ L.orderedInfos) : info ∈ L.infos := by
  obtain ⟨pair, hpair, rfl⟩ := List.mem_map.1 h
  obtain ⟨known, hknown, rfl⟩ := List.mem_map.1 (Ordered.mem_of_mem_putAll hpair)
  exact hknown

/-- No canonical name has a blank in it, so every line is plain. -/
theorem Represented.plain (hr : L.Represented) : ∀ l ∈ L.report.lines, l.Plain := by
  have hblocks : ∀ b ∈ L.report.blocks, Solid b.name ∧ ∀ i ∈ b.interfaces, Solid i := fun b hb => by
    obtain ⟨info, hinfo, rfl⟩ := List.mem_map.1 hb
    exact hr.solid_of_mem_infos (mem_infos_of_mem_orderedInfos hinfo)
  have hinterfaces : ∀ i ∈ L.report.interfaces, Solid i := fun i hi => by
    obtain ⟨info, hinfo, hi⟩ := List.mem_flatMap.1 (Ordered.mem_ofList.1 hi)
    exact (hr.solid_of_mem_infos hinfo).2 i hi
  have hword : ∀ (depth : Nat) (word : String), Solid word → (⟨depth, [word]⟩ : Line).Plain :=
    fun depth word h => ⟨by simp, fun w hw => List.mem_singleton.1 hw ▸ h⟩
  have hlabel : ∀ (depth : Nat) (label : List String) (n : Nat) (rest : List String),
      (∀ word ∈ label ++ rest, Solid word) → (⟨depth, label ++ toString n :: rest⟩ : Line).Plain := by
    refine fun depth label n rest h => ⟨by simp, fun word hmem => ?_⟩
    rcases List.mem_append.1 hmem with hlabel | hmem
    · exact h word (List.mem_append_left _ hlabel)
    · rcases List.mem_cons.1 hmem with rfl | hrest
      · exact solid_toString n
      · exact h word (List.mem_append_right _ hrest)
  intro l hl
  simp only [Report.lines, List.mem_cons, List.mem_append, List.mem_map, List.mem_flatMap, Block.lines] at hl
  rcases hl with rfl | rfl | ⟨i, hi, rfl⟩ | rfl | ⟨b, hb, rfl | ⟨i, hi, rfl⟩⟩
  · exact ⟨by decide, by decide⟩
  · exact hlabel 1 ["Known", "Interfaces:"] _ [] (by decide)
  · exact hword 2 i (hinterfaces i hi)
  · exact hlabel 1 ["Known", "Plugins:"] _ [] (by decide)
  · have hname : Solid ("[" ++ b.name ++ "]") :=
      solid_append (solid_append (by decide) (hblocks b hb).1) (by decide)
    refine hlabel 2 ["[" ++ b.name ++ "]", "which", "implements"] b.count [_] fun word hmem => ?_
    simp only [List.cons_append, List.nil_append, List.mem_cons, List.not_mem_nil, or_false] at hmem
    rcases hmem with rfl | rfl | rfl | rfl
    · exact hname
    · decide
    · decide
    · split <;> decide
  · exact hword 3 i ((hblocks b hb).2 i hi)

theorem Represented.read_dump (hr : L.Represented) : Report.read L.dump = some L.report := by
  rw [Report.read, Line.all_of_plain hr.plain L.toList_dump, Report.ofLines_lines]

/-! ## What the report says -/

/-- The plugins are listed in the order of their names. -/
theorem sorted_orderedInfos (L : Loader) : L.orderedInfos.Pairwise fun a b => a.name < b.name := by
  have hname : ∀ pair ∈ Ordered.putAll (L.infos.map fun info => (info.name, info)), pair.2.name = pair.1 := by
    intro pair hpair
    obtain ⟨info, -, rfl⟩ := List.mem_map.1 (Ordered.mem_of_mem_putAll hpair)
    rfl
  refine List.pairwise_map.2 ((List.pairwise_map.1 (Ordered.sorted_putAll _)).imp_of_mem ?_)
  intro a b ha hb hlt
  rw [hname a ha, hname b hb]
  exact hlt

namespace Orderly

variable (ho : L.Orderly)

include ho

theorem mem_orderedInfos : info ∈ L.orderedInfos ↔ info ∈ L.infos := by
  refine ⟨mem_infos_of_mem_orderedInfos, fun h => List.mem_map.2 ⟨(info.name, info), ?_, rfl⟩⟩
  have hkeys : (L.infos.map fun info => (info.name, info)).map Prod.fst = L.infos.map PluginInfo.name := by
    rw [List.map_map]
    rfl
  rw [Ordered.mem_putAll_iff (hkeys ▸ ho.represented.nodup_names_infos ho.distinct)]
  exact List.mem_map_of_mem h

/-- The plugin that stands there with a name is the one that is known under it. -/
theorem find?_orderedInfos (p : String) :
    (L.orderedInfos.find? fun info => info.name == Name.normalize p) = L.pluginInfo p := by
  have hfound : ∀ {info}, info ∈ L.orderedInfos → info.name = Name.normalize p →
      L.pluginInfo p = some info := fun {info} hinfo hname => by
    have h := (mem_infos_iff ho.distinct ho.represented).1 (ho.mem_orderedInfos.1 hinfo)
    rwa [hname, pluginInfo, Name.normalize_normalize] at h
  cases hp : L.pluginInfo p with
  | none =>
    refine List.find?_eq_none.2 fun info hinfo hname => ?_
    rw [hfound hinfo (eq_of_beq hname)] at hp
    cases hp
  | some info =>
    have hmem := ho.mem_orderedInfos.2 (mem_infos_of_pluginInfo hp)
    have hname : (info.name == Name.normalize p) = true :=
      beq_iff_eq.2 (ho.represented.name_of_pluginInfo hp)
    obtain ⟨found, hfind⟩ : ∃ found,
        (L.orderedInfos.find? fun info => info.name == Name.normalize p) = some found :=
      Option.isSome_iff_exists.1 (List.find?_isSome.2 ⟨info, hmem, hname⟩)
    have hsame : found.name = Name.normalize p := eq_of_beq (List.find?_some hfind :)
    rw [hfind, ← hp, hfound (List.mem_of_find?_eq_some hfind) hsame]

theorem interfacesOf_report (p : String) :
    L.report.interfacesOf p = (L.pluginInfo p).map PluginInfo.interfaceNames := by
  rw [← ho.find?_orderedInfos p, Report.interfacesOf, report, List.find?_map, Option.map_map]
  rfl

theorem mem_interfaces_report {i : String} :
    i ∈ L.report.interfaces ↔ ∃ b ∈ L.report.blocks, i ∈ b.interfaces := by
  simp only [report, interfacesImplemented, Ordered.mem_ofList, List.mem_flatMap, List.mem_map,
    exists_exists_and_eq_and, ho.mem_orderedInfos]

end Orderly

/-- What the text of a loader says about the loader, and about itself. -/
structure Legible (L : Loader) (r : Report) : Prop where
  read : Report.read L.dump = some r
  /-- Every number is that of the lines that follow. -/
  counted : r.interfaceCount = r.interfaces.length ∧ r.pluginCount = r.blocks.length ∧
    ∀ b ∈ r.blocks, b.count = b.interfaces.length
  /-- Every block is in the order of octets, and nothing comes twice in it. -/
  ordered : (r.interfaces.Pairwise fun a b => Utf8.encode a < Utf8.encode b) ∧
    (r.blocks.Pairwise fun a b => Utf8.encode a.name < Utf8.encode b.name) ∧
    ∀ b ∈ r.blocks, b.interfaces.Pairwise fun i j => Utf8.encode i < Utf8.encode j
  united : ∀ i, i ∈ r.interfaces ↔ ∃ b ∈ r.blocks, i ∈ b.interfaces
  /-- The index is read back, under every spelling of a name. -/
  back : ∀ p, r.interfacesOf p = (L.pluginInfo p).map PluginInfo.interfaceNames

theorem Orderly.legible_report (ho : L.Orderly) : L.Legible L.report where
  read := ho.represented.read_dump
  counted := by
    refine ⟨rfl, (List.length_map _).symm, fun b hb => ?_⟩
    obtain ⟨info, -, rfl⟩ := List.mem_map.1 hb
    exact (List.length_map _).symm
  ordered := by
    refine ⟨(Ordered.sorted_ofList _).imp Utf8.encode_lt_of_lt, ?_, fun b hb => ?_⟩
    · exact List.pairwise_map.2 (L.sorted_orderedInfos.imp Utf8.encode_lt_of_lt)
    · obtain ⟨info, hinfo, rfl⟩ := List.mem_map.1 hb
      exact (ho.sorted.of_mem_infos (mem_infos_of_mem_orderedInfos hinfo)).imp Utf8.encode_lt_of_lt
  united := fun _ => ho.mem_interfaces_report
  back := ho.interfacesOf_report

/-! ## When texts are equal -/

/-- Both loaders know the same plugins, and each with the same set of interfaces. -/
def SameNames (L L' : Loader) : Prop :=
  ∀ p, Option.Rel (fun a b : PluginInfo => ∀ i, i ∈ a.interfaceNames ↔ i ∈ b.interfaceNames)
    (L.pluginInfo p) (L'.pluginInfo p)

theorem dump_eq_of_report (h : L.report = L'.report) : L.dump = L'.dump := by
  rw [← String.toList_inj, toList_dump, toList_dump, h]

theorem SameNames.symm (h : SameNames L L') : SameNames L' L := fun p => by
  have hp := h p
  cases hL : L.pluginInfo p with
  | none =>
    rw [hL] at hp
    generalize L'.pluginInfo p = other at hp ⊢
    cases hp
    exact .none
  | some info =>
    rw [hL] at hp
    generalize L'.pluginInfo p = other at hp ⊢
    cases hp with
    | some hi => exact .some fun i => (hi i).symm

theorem SameNames.mem_blocks (h : SameNames L L') (ho : L.Orderly) (ho' : L'.Orderly) {b : Block}
    (hb : b ∈ L.report.blocks) : b ∈ L'.report.blocks := by
  obtain ⟨info, hinfo, rfl⟩ := List.mem_map.1 hb
  have hmem := mem_infos_of_mem_orderedInfos hinfo
  have hp := h info.name
  rw [(mem_infos_iff ho.distinct ho.represented).1 hmem] at hp
  generalize hother : L'.pluginInfo info.name = other at hp
  cases hp with
  | @some _ info' hi =>
    have hmem' := mem_infos_of_pluginInfo hother
    have hname : info'.name = info.name := by
      rw [ho'.represented.name_of_pluginInfo hother, ho.represented.canonical_of_mem_infos hmem]
    -- both lists are in order, so that the same interfaces make the same list
    have hnames : info'.interfaceNames = info.interfaceNames :=
      Ordered.eq_of_sorted id (ho'.sorted.of_mem_infos hmem') (ho.sorted.of_mem_infos hmem)
        fun i => (hi i).symm
    have hcount : ∀ info : PluginInfo, info.interfaceCount = info.interfaceNames.length := fun info =>
      (List.length_map _).symm
    refine List.mem_map.2 ⟨info', ho'.mem_orderedInfos.2 hmem', ?_⟩
    rw [hname, hcount, hcount, hnames]

theorem SameNames.report_eq (h : SameNames L L') (ho : L.Orderly) (ho' : L'.Orderly) :
    L.report = L'.report := by
  have hblocks : L.report.blocks = L'.report.blocks :=
    Ordered.eq_of_sorted Block.name (List.pairwise_map.2 L.sorted_orderedInfos)
      (List.pairwise_map.2 L'.sorted_orderedInfos) fun b =>
        ⟨h.mem_blocks ho ho', h.symm.mem_blocks ho' ho⟩
  have hinterfaces : L.report.interfaces = L'.report.interfaces :=
    Ordered.eq_of_sorted id (Ordered.sorted_ofList _) (Ordered.sorted_ofList _) fun i => by
      rw [ho.mem_interfaces_report, ho'.mem_interfaces_report, hblocks]
  obtain ⟨hcount, hlength, -⟩ := ho.legible_report.counted
  obtain ⟨hcount', hlength', -⟩ := ho'.legible_report.counted
  refine Report.ext ?_ hinterfaces ?_ hblocks
  · rw [hcount, hcount', hinterfaces]
  · rw [hlength, hlength', hblocks]

theorem sameNames_of_report (ho : L.Orderly) (ho' : L'.Orderly) (h : L.report = L'.report) :
    SameNames L L' := fun p => by
  have hback : (L.pluginInfo p).map PluginInfo.interfaceNames =
      (L'.pluginInfo p).map PluginInfo.interfaceNames := by
    rw [← ho.interfacesOf_report, h, ho'.interfacesOf_report]
  cases hL : L.pluginInfo p with
  | none =>
    rw [hL] at hback
    rw [Option.map_eq_none_iff.1 hback.symm]
    exact .none
  | some info =>
    rw [hL] at hback
    obtain ⟨info', hinfo', hnames⟩ := Option.map_eq_some_iff.1 hback.symm
    rw [hinfo']
    exact .some fun i => by rw [hnames]

/-- Two texts are equal if their loaders know the same names. -/
theorem Orderly.dump_eq_iff (ho : L.Orderly) (ho' : L'.Orderly) : L.dump = L'.dump ↔ SameNames L L' := by
  refine ⟨fun h => sameNames_of_report ho ho' ?_, fun h => dump_eq_of_report (h.report_eq ho ho')⟩
  rw [← Option.some.injEq, ← ho.represented.read_dump, ← ho'.represented.read_dump, h]

end PluginHost.Loader
