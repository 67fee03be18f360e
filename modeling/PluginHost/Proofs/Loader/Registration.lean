import PluginHost.Loader.Query
import PluginHost.Proofs.Loader.Backing
import PluginHost.Proofs.Loader.Failure
import PluginHost.Proofs.Loader.Soundness
import PluginHost.Proofs.Ordered
import PluginHost.Proofs.Table.Each

/-!
# What one registration does

Plugins are judged by the index as it was before any of them was entered, and then they are entered one by
one, so that of several with one name the last stays. The answer, the library that is recorded and the
entries of the index and of the table tell the same names.

* `Loader.Admits`, `Loader.admitted`: which plugins are let in.
* `Loader.lastNamed`: which of them stays.
* `Loader.Registers`: what a registration answers and what it changes.
* `Loader.registers_of_sound`: every registration of an opened library is such.
* `Loader.tryLoad_eq_register`: a load that succeeds is a registration.
-/

namespace PluginHost

set_option autoImplicit false

open PluginHost.Table

namespace Loader

variable {L : Loader} {key : Path}

/-! ## Plugins that are let in -/

/-- A name is free, it belongs to a library with this path, or names may be taken over. -/
def Admits (L : Loader) (key : Path) (n : String) : Prop :=
  L.index.find? n = none ∨ (∃ e ∈ L.index.find? n, (e.library.path == key) = true) ∨
    L.config.duplicatePolicy = .overwrite

instance (L : Loader) (key : Path) (n : String) : Decidable (L.Admits key n) :=
  inferInstanceAs (Decidable (_ ∨ _ ∨ _))

theorem accepts_iff {info : PluginInfo} : L.accepts key info = true ↔ L.Admits key info.name := by
  unfold accepts judge Admits
  cases L.index.find? info.name with
  | none => simp
  | some known =>
    by_cases hkey : (known.library.path == key) = true
    · simp [hkey]
    · cases L.config.duplicatePolicy <;> simp [hkey]

/-- The plugins that are let in, with canonical names, in the order of the library. -/
def admitted (L : Loader) (key : Path) (infos : List PluginInfo) : List PluginInfo :=
  (infos.map PluginInfo.normalized).filter fun info => L.Admits key info.name

theorem accepted_eq (L : Loader) (key : Path) (infos : List PluginInfo) :
    L.accepted key infos = L.admitted key infos := by
  refine List.filter_congr fun info _ => ?_
  rw [Bool.eq_iff_iff, accepts_iff, decide_eq_true_iff]

/-! ## Plugins that stay -/

def lastNamed (n : String) (infos : List PluginInfo) : Option PluginInfo :=
  infos.reverse.find? fun info => info.name == n

theorem of_lastNamed {n : String} {infos : List PluginInfo} {info : PluginInfo}
    (h : lastNamed n infos = some info) : info ∈ infos ∧ info.name = n :=
  ⟨List.mem_reverse.1 (List.mem_of_find?_eq_some h), by simpa using List.find?_some h⟩

theorem indexed_eq_putEach (library : Library) (index : Table String IndexEntry)
    (infos : List PluginInfo) : indexed library index infos =
      index.putEach (infos.map fun info => (info.name, ⟨info, library⟩)) := by
  rw [putEach, List.foldl_map]
  rfl

/-- Of entries that are put under the names of plugins the one of the last plugin with a name is found. -/
theorem find?_putEach_named {ν : Type} (t : Table String ν) (f : PluginInfo → ν) (infos : List PluginInfo)
    (n : String) : (t.putEach (infos.map fun info => (info.name, f info))).find? n =
      ((lastNamed n infos).map f).or (t.find? n) := by
  have hlast : ((infos.map fun info => (info.name, f info)).reverse.find? fun e => e.1 == n).map Prod.snd =
      (lastNamed n infos).map f := by
    rw [← List.map_reverse, List.find?_map, Option.map_map]
    rfl
  rw [find?_putEach, hlast]

theorem find?_indexed_eq (library : Library) (index : Table String IndexEntry) (infos : List PluginInfo)
    (n : String) : (indexed library index infos).find? n =
      match lastNamed n infos with
      | some info => some ⟨info, library⟩
      | none => index.find? n := by
  rw [indexed_eq_putEach, find?_putEach_named index fun info => ⟨info, library⟩]
  cases lastNamed n infos <;> rfl

/-! ## Registrations -/

/-- The library was recorded under its key, it stands behind the last plugin of each name, and nothing else
in the index and the table was touched. -/
structure Recorded (L : Loader) (h : Host) (key : Path) (infos : List PluginInfo) (names : List String)
    (L' : Loader) (h' : Host) (l : Library) : Prop where
  path : l.path = key
  plugins : l.plugins = names
  unknown : h.records.find? l.id = none
  record : ∃ r, h'.records.find? l.id = some r ∧ r.library = l ∧ r.live = 0
  config : L'.config = L.config
  index : ∀ n, L'.index.find? n =
    match lastNamed n (L.admitted key infos) with
    | some info => some ⟨info, l⟩
    | none => L.index.find? n
  libraries : ∀ p, L'.libraries.find? p = if key == p then some l else L.libraries.find? p

/-- What the registration of some plugins under a key answers, and what it makes of a loader and of the host
as it was before the library was opened. -/
structure Registers (L : Loader) (h : Host) (key : Path) (infos : List PluginInfo)
    (names : List String) (L' : Loader) (h' : Host) : Prop where
  named : ∀ n, n ∈ names ↔ ∃ info ∈ L.admitted key infos, info.name = n
  ordered : names.Pairwise (· < ·)
  barren : names = [] → L' = L ∧ h.Restored h'
  recorded : names ≠ [] → ∃ l, Recorded L h key infos names L' h' l
  fresh : ∀ config, L = withConfig config → L'.interfacesImplemented = Ordered.ofList
    (names.flatMap fun n =>
      (lastNamed n (infos.map PluginInfo.normalized)).toList.flatMap PluginInfo.interfaceNames)

theorem register_eq (L : Loader) (h : Host) (key : Path) (o : Origin) (infos : List PluginInfo) :
    (L.register h key o infos).1 = (record h.fresh key o (L.admitted key infos)).plugins ∧
      (L.register h key o infos).2.1 =
        if (L.admitted key infos).isEmpty then L
        else L.registered (record h.fresh key o (L.admitted key infos)) (L.admitted key infos) := by
  simp only [register, accepted_eq]
  cases hchosen : L.admitted key infos with
  | nil => exact ⟨rfl, rfl⟩
  | cons info rest =>
    simp only [enlist, enterAll_loader, Host.newLibrary, fresh_notes]
    exact ⟨rfl, rfl⟩

theorem plugins_record_eq_nil_iff {id : Nat} {o : Origin} {infos : List PluginInfo} :
    (record id key o infos).plugins = [] ↔ infos = [] := by
  constructor
  · intro hnone
    by_contra hsome
    exact plugins_record_ne_nil hsome hnone
  · rintro rfl
    rfl

theorem interfacesImplemented_indexed (config : Config) (libraries : Table Path Library) (l : Library)
    (infos : List PluginInfo) :
    (Loader.mk config libraries (indexed l [] infos)).interfacesImplemented = Ordered.ofList
      ((Ordered.ofList (infos.map PluginInfo.name)).flatMap fun n =>
        (lastNamed n infos).toList.flatMap PluginInfo.interfaceNames) := by
  refine Ordered.ofList_congr fun i => ?_
  simp only [Loader.infos, List.mem_flatMap, List.mem_map, Option.mem_toList, Ordered.mem_ofList]
  constructor
  · rintro ⟨_, ⟨e, he, rfl⟩, hi⟩
    obtain ⟨n, hn⟩ := exists_find?_of_mem_values (distinct_indexed distinct_nil infos) he
    rw [find?_indexed_eq] at hn
    split at hn
    · next info hinfo =>
      rw [← Option.some.inj hn] at hi
      exact ⟨n, ⟨info, of_lastNamed hinfo⟩, info, hinfo, hi⟩
    · simp at hn
  · rintro ⟨n, -, info, hinfo, hi⟩
    refine ⟨info, ⟨⟨info, l⟩, mem_values_of_find? (k := n) ?_, rfl⟩, hi⟩
    rw [find?_indexed_eq, hinfo]

/-! ## Opened libraries -/

end Loader

def Mapping.origin (m : Mapping) (id : Nat) : Origin := ⟨id, m.image.id, m.image.reports⟩

/-- The host after a path was opened, with a hold on the mapping that it leads to, and whatever was asked and
said about the exports. -/
def Host.probed (h : Host) (p : Path) (id : Nat) (m : Mapping) (probes : List Probe) : Host :=
  probes.foldl (Loader.probe (m.origin id)) ((h.note (.opening p)).hold id m)

namespace Loader

variable {births : Nat → Prop} {earlier h : Host} {L : Loader} {referred : Multiset Library}
  {held : Multiset Instance} {p : Path} {id : Nat} {m : Mapping}

theorem Sound.probed (hs : Sound births earlier L h 0 referred held) (hp : h.locate p = some (id, m))
    (probes : List Probe) :
    Sound births earlier L (h.probed p id m probes) ((m.origin id).mapping ::ₘ 0) referred held := by
  have hopening : (h.note (.opening p)).locate p = some ((m.origin id).mapping, m) := hp
  exact hs.withHost (Sound.probes ((hs.host.note (.opening p)).hold hopening) probes)

theorem Sound.exists_record {opened : Multiset Nat} {l : Library}
    (hs : Sound births earlier L h opened referred held) (hl : l ∈ L.references) :
    ∃ r, h.records.find? l.id = some r ∧ r.library = l := by
  apply hs.host.balanced.records.kept
  exact Multiset.mem_add.2 (.inl (Multiset.mem_add.2 (.inl hl)))

theorem fresh_probed (h : Host) (p : Path) (id : Nat) (m : Mapping) (probes : List Probe) :
    (h.probed p id m probes).fresh = max h.fresh (id + 1) := fresh_probes _ _ probes

/-- When plugins are admitted, they are registered with a new record. -/
theorem recorded_of_sound (hs : Sound births earlier L h 0 referred held) (hp : h.locate p = some (id, m))
    (probes : List Probe) (key : Path) (infos : List PluginInfo) (hsome : L.admitted key infos ≠ []) :
    let done := L.register (h.probed p id m probes) key (m.origin id) infos
    ∃ l, Recorded L h key infos done.1 done.2.1 done.2.2 l := by
  intro done
  obtain ⟨hnames, hloader⟩ := L.register_eq (h.probed p id m probes) key (m.origin id) infos
  rw [List.isEmpty_eq_false_iff.2 hsome] at hloader
  let l := record (h.probed p id m probes).fresh key (m.origin id) (L.admitted key infos)
  have hafter := (hs.probed hp probes).register key infos
  have hunknown : h.records.find? l.id = none := by
    apply hs.host.balanced.fresh.2.1
    show h.fresh ≤ (h.probed p id m probes).fresh
    rw [fresh_probed]
    exact Nat.le_max_left _ _
  have hlibraries : ∀ q, done.2.1.libraries.find? q =
      if key == q then some l else L.libraries.find? q := fun q => by
    rw [hloader]
    exact find?_put L.libraries q key l
  refine ⟨l, rfl, hnames.symm, hunknown, ?_, by rw [hloader]; rfl, fun n => ?_, hlibraries⟩
  · -- the table refers to the library, and of what is held nothing is of it
    have hl : l ∈ done.2.1.references := mem_references_of_table ((hlibraries key).trans (if_pos BEq.rfl))
    obtain ⟨r, hr, hlib⟩ := hafter.exists_record hl
    refine ⟨r, hr, hlib, ?_⟩
    have hlive : done.2.2.live l = h.live l :=
      (hafter.host.balanced.live_eq l).trans (hs.host.balanced.live_eq l).symm
    simp only [Host.live, hunknown] at hlive
    rw [hr] at hlive
    exact hlive
  · rw [hloader]
    exact find?_indexed_eq l L.index (L.admitted key infos) n

/-- Whatever is registered under whatever key after a path was opened, it is a registration. -/
theorem registers_of_sound (hs : Sound births earlier L h 0 referred held) (hp : h.locate p = some (id, m))
    (probes : List Probe) (key : Path) (infos : List PluginInfo) :
    let done := L.register (h.probed p id m probes) key (m.origin id) infos
    Registers L h key infos done.1 done.2.1 done.2.2 := by
  intro done
  obtain ⟨hnames, hloader⟩ := L.register_eq (h.probed p id m probes) key (m.origin id) infos
  have hnil : done.1 = [] ↔ L.admitted key infos = [] := by
    rw [← plugins_record_eq_nil_iff, ← hnames]
  constructor
  case named =>
    intro n
    rw [hnames]
    exact mem_plugins_record
  case ordered =>
    rw [hnames]
    exact Ordered.sorted_ofList _
  case barren =>
    intro hnone
    refine ⟨by rw [hloader, hnil.1 hnone]; rfl, ?_⟩
    obtain ⟨judged, hjudged, hclosed⟩ := register_of_barren hnone
    have hread : ((h.note (.opening p)).hold id m).Reads judged := (reads_probes _ _ probes).trans hjudged
    rw [hclosed]
    exact .of_reads (h.reads_note _)
      (Host.restored_of_reads (hs.host.balanced.log _) hp hread)
  case recorded => exact fun hsome => recorded_of_sound hs hp probes key infos (mt hnil.2 hsome)
  case fresh =>
    rintro config rfl
    have hall : (withConfig config).admitted key infos = infos.map PluginInfo.normalized := by
      apply List.filter_eq_self.2
      intro info _
      rw [decide_eq_true_iff]
      exact .inl rfl
    rw [hloader, hnames, hall]
    cases infos with
    | nil => rfl
    | cons info rest => exact interfacesImplemented_indexed config _ _ _

/-- A load that succeeds registers what was read, under the key of the path. -/
theorem tryLoad_eq_register {names : List String} (hok : (L.tryLoad h p).1 = .ok names) :
    ∃ id m n probes, h.locate p = some (id, m) ∧ (negotiate m.image.exports).2 = .ok n ∧
      let done := L.register (h.probed p id m probes) (libraryKey h.files p) (m.origin id) n.infos
      L.tryLoad h p = (.ok done.1, done.2.1, done.2.2.note (.loaded done.1.length p)) := by
  by_cases hexists : h.files.exists? p = true
  · have hlocate : (h.note (.opening p)).locate p = h.locate p := rfl
    simp only [tryLoad, hexists, if_true, Host.openLibrary, hlocate] at hok ⊢
    cases hp : h.locate p with
    | none => simp [hp] at hok
    | some found =>
      obtain ⟨id, m⟩ := found
      simp only [hp, Option.map_some, receive] at hok ⊢
      cases hn : (negotiate m.image.exports).2 with
      | error e => simp [hn] at hok
      | ok n =>
        -- everything that is said or asked before the registration is a probe
        let warning : List Probe :=
          if L.config.warnOutdatedAbi && n.isOutdated then [.notice (.outdated p n.version)] else []
        have hwarned : ∀ g, L.warnOutdated g p n = warning.foldl (probe (m.origin id)) g := by
          intro g
          simp only [warnOutdated, warning]
          split <;> rfl
        refine ⟨id, m, n, .notice (.declares p m.image.exports.version m.image.exports.infoSize) ::
          (negotiate m.image.exports).1 ++ warning, rfl, hn, ?_⟩
        simp only [hwarned, Host.probed, List.cons_append, List.foldl_cons, List.foldl_append]
        rfl
  · simp [tryLoad, hexists] at hok

end Loader

end PluginHost
