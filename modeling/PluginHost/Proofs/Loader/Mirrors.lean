import PluginHost.Proofs.Host.Mirrors
import PluginHost.Proofs.Loader.Passes

/-!
# Loaders that mirror each other

Loads do the same in hosts that mirror each other, and leave hosts that do. A load that registers nothing leaves
a host that mirrors the one before: an identity or two are used up, and a mapping may be known under one more
string, which leads there anyway. So such a load makes no difference for the loads that follow, also when files
were changed under what is in memory.

* `Loader.renamed`: a loader with other identities.
* `Loader.Mirrors`: two loaders in hosts that mirror each other.
* `Loader.Mirrors.load`, `Loader.Mirrors.loadAll`: loads on both sides.
* `Loader.mirrors_of_barren`: every loader after a load that registers nothing.
-/

namespace PluginHost

set_option autoImplicit false

open PluginHost.Table

theorem Table.mapValues_eq_self {κ ν : Type} {f : ν → ν} {t : Table κ ν} (h : ∀ e ∈ t, f e.2 = e.2) :
    mapValues f t = t := by
  have hsame : ∀ e ∈ t, (e.1, f e.2) = id e := fun e he => by rw [h e he]; rfl
  exact (List.map_congr_left hsame).trans (List.map_id t)

namespace Loader

variable {σ : Nat → Nat} {L L' : Loader} {h h' : Host}

/-! ## Other identities -/

def renamed (σ : Nat → Nat) (L : Loader) : Loader :=
  { L with
    libraries := L.libraries.mapValues (Library.renamed σ)
    index := L.index.mapValues fun e => { e with library := e.library.renamed σ } }

theorem outline_renamed (σ : Nat → Nat) (L : Loader) : (L.renamed σ).outline = L.outline := by
  simp [outline, renamed, mapValues, Library.renamed]

theorem judge_renamed (σ : Nat → Nat) (L : Loader) (key : Path) (info : PluginInfo) :
    (L.renamed σ).judge key info = L.judge key info := by
  simp only [judge, renamed, find?_mapValues]
  cases L.index.find? info.name <;> rfl

theorem accepted_renamed (σ : Nat → Nat) (L : Loader) (key : Path) (infos : List PluginInfo) :
    (L.renamed σ).accepted key infos = L.accepted key infos :=
  List.filter_congr fun info _ => congrArg Prod.fst (L.judge_renamed σ key info)

theorem verdicts_renamed (σ : Nat → Nat) (L : Loader) (key : Path) (infos : List PluginInfo) :
    (L.renamed σ).verdicts key infos = L.verdicts key infos := by
  simp only [verdicts, judge_renamed]

/-! ## Registration on both sides -/

theorem mirrors_enter (hm : h.Mirrors σ h') (l : Library) (L : Loader) (info : PluginInfo) :
    (enter (l.renamed σ) (L.renamed σ) h' info).1 = (enter l L h info).1.renamed σ ∧
      (enter l L h info).2.Mirrors σ (enter (l.renamed σ) (L.renamed σ) h' info).2 := by
  have hretained := hm.retainLibrary l
  refine ⟨?_, ?_⟩
  · simp only [enter, renamed, mapValues_put]
  · simp only [enter, renamed, find?_mapValues]
    cases L.index.find? info.name with
    | none => exact hretained
    | some known => exact hretained.releaseLibrary known.library

theorem mirrors_enterAll (hm : h.Mirrors σ h') (l : Library) (L : Loader) (infos : List PluginInfo) :
    (enterAll (l.renamed σ) (L.renamed σ) h' infos).1 = (enterAll l L h infos).1.renamed σ ∧
      (enterAll l L h infos).2.Mirrors σ (enterAll (l.renamed σ) (L.renamed σ) h' infos).2 := by
  induction infos generalizing L h h' with
  | nil => exact ⟨rfl, hm⟩
  | cons info rest ih =>
    obtain ⟨hloader, hhost⟩ := mirrors_enter hm l L info
    have hrest := ih hhost (enter l L h info).1
    rw [← hloader] at hrest
    exact hrest

theorem mirrors_enlist (hm : h.Mirrors σ h') (l : Library) (L : Loader) :
    (enlist (l.renamed σ) (L.renamed σ) h').1 = (enlist l L h).1.renamed σ ∧
      (enlist l L h).2.Mirrors σ (enlist (l.renamed σ) (L.renamed σ) h').2 := by
  refine ⟨?_, ?_⟩
  · simp only [enlist, renamed, mapValues_put, Library.renamed]
  · have hpath : (l.renamed σ).path = l.path := rfl
    simp only [enlist, renamed, find?_mapValues, hpath]
    cases L.libraries.find? l.path with
    | none => exact hm
    | some old => exact hm.releaseLibrary old

theorem mirrors_notes (hm : h.Mirrors σ h') (ns : List Notice) :
    (ns.foldl Host.note h).Mirrors σ (ns.foldl Host.note h') := by
  induction ns generalizing h h' with
  | nil => exact hm
  | cons n rest ih => exact ih (hm.log _ _)

theorem mirrors_probes (hm : h.Mirrors σ h') (o o' : Origin) (ps : List Probe) :
    (ps.foldl (probe o) h).Mirrors σ (ps.foldl (probe o') h') := by
  induction ps generalizing h h' with
  | nil => exact hm
  | cons p rest ih =>
    refine ih ?_
    cases p <;> exact hm.log _ _

theorem mirrors_register (hm : h.Mirrors σ h') (L : Loader) (key : Path) (o : Origin)
    (infos : List PluginInfo) :
    let done := L.register h key o infos
    let done' := (L.renamed σ).register h' key { o with mapping := σ o.mapping } infos
    done'.1 = done.1 ∧ done'.2.1 = done.2.1.renamed σ ∧ done.2.2.Mirrors σ done'.2.2 := by
  have hjudged := mirrors_notes hm (L.verdicts key infos)
  simp only [register, accepted_renamed, verdicts_renamed]
  split
  · exact ⟨rfl, rfl, hjudged.closeMapping o.mapping⟩
  · obtain ⟨hlibrary, hopened⟩ :=
      hjudged.newLibrary key (Ordered.ofList ((L.accepted key infos).map PluginInfo.name)) o
    obtain ⟨hentered, hhost⟩ := mirrors_enterAll hopened _ L (L.accepted key infos)
    obtain ⟨henlisted, hhost'⟩ := mirrors_enlist hhost _ _
    rw [hlibrary, hentered]
    exact ⟨rfl, henlisted, hhost'⟩

theorem mirrors_warnOutdated (hm : h.Mirrors σ h') (L : Loader) (p : Path) (n : Negotiated) :
    (L.warnOutdated h p n).Mirrors σ ((L.renamed σ).warnOutdated h' p n) := by
  have hconfig : (L.renamed σ).config = L.config := rfl
  unfold warnOutdated
  rw [hconfig]
  split
  · exact hm.log _ _
  · exact hm

theorem mirrors_receive (hm : h.Mirrors σ h') (L : Loader) (p : Path) (o : Origin) (exports : Exports) :
    let done := L.receive h p o exports
    let done' := (L.renamed σ).receive h' p { o with mapping := σ o.mapping } exports
    done'.1 = done.1 ∧ done'.2.1 = done.2.1.renamed σ ∧ done.2.2.Mirrors σ done'.2.2 := by
  have hread := mirrors_probes (hm.log (.notice (.declares p exports.version exports.infoSize))
    (.notice (.declares p exports.version exports.infoSize))) o { o with mapping := σ o.mapping }
    (negotiate exports).1
  simp only [receive]
  cases (negotiate exports).2 with
  | error e => exact ⟨rfl, rfl, hread.closeMapping o.mapping⟩
  | ok n =>
    have hwarned := mirrors_warnOutdated hread L p n
    obtain ⟨hnames, hloader, hhost⟩ := mirrors_register hwarned L (libraryKey h.files p) o n.infos
    rw [hm.files]
    exact ⟨congrArg Except.ok hnames, hloader, hhost.log _ _⟩

/-! ## Loads on both sides -/

/-- The second loader is the first with other identities, in a host that mirrors the host of the first. -/
structure Mirrors (σ : Nat → Nat) (L L' : Loader) (h h' : Host) : Prop where
  loader : L' = L.renamed σ
  host : h.Mirrors σ h'
  unambiguous : h.Unambiguous ∧ h'.Unambiguous

namespace Mirrors

theorem outline (hm : Mirrors σ L L' h h') : L'.outline = L.outline := by
  rw [hm.loader, outline_renamed]

theorem tryLoad (hm : Mirrors σ L L' h h') (p : Path) : (L'.tryLoad h' p).1 = (L.tryLoad h p).1 ∧
    Mirrors σ (L.tryLoad h p).2.1 (L'.tryLoad h' p).2.1 (L.tryLoad h p).2.2 (L'.tryLoad h' p).2.2 := by
  obtain ⟨rfl, hhost, hu, hu'⟩ := hm
  suffices hdone : ((L.renamed σ).tryLoad h' p).1 = (L.tryLoad h p).1 ∧
      ((L.renamed σ).tryLoad h' p).2.1 = (L.tryLoad h p).2.1.renamed σ ∧
      (L.tryLoad h p).2.2.Mirrors σ ((L.renamed σ).tryLoad h' p).2.2 by
    refine ⟨hdone.1, hdone.2.1, hdone.2.2, ?_, ?_⟩
    · exact (L.evolves_tryLoad h p).invariant (fun _ _ hm hu => hu.moves hm) hu
    · exact ((L.renamed σ).evolves_tryLoad h' p).invariant (fun _ _ hm hu => hu.moves hm) hu'
  simp only [Loader.tryLoad, hhost.files]
  split
  · have hopening := hhost.log (.notice (.opening p)) (.notice (.opening p))
    have hlocate : (h.note (.opening p)).locate p = h.locate p := rfl
    have hlocate' : (h'.note (.opening p)).locate p = h'.locate p := rfl
    simp only [Host.openLibrary, hlocate, hlocate']
    rcases hhost.locate hu hu' p with ⟨hnone, hnone'⟩ | ⟨id, m, m', hp, hp', hid, hmirrors⟩
    · simp only [hnone, hnone', Option.map_none]
      exact ⟨trivial, trivial, hopening⟩
    · simp only [hp, hp', Option.map_some, hmirrors.image]
      exact mirrors_receive (hopening.hold hid hmirrors) L p ⟨id, m.image.id, m.image.reports⟩ m.image.exports
  · exact ⟨rfl, rfl, hhost⟩

theorem load (hm : Mirrors σ L L' h h') (p : Path) : (L'.load h' p).1 = (L.load h p).1 ∧
    Mirrors σ (L.load h p).2.1 (L'.load h' p).2.1 (L.load h p).2.2 (L'.load h' p).2.2 := by
  obtain ⟨hanswer, hmirrors⟩ := hm.tryLoad p
  cases hanswer' : (L.tryLoad h p).1 with
  | ok names =>
    rw [load_of_ok hanswer', load_of_ok (hanswer.trans hanswer')]
    exact ⟨rfl, hmirrors⟩
  | error e =>
    rw [load_of_error hanswer', load_of_error (hanswer.trans hanswer')]
    refine ⟨rfl, hmirrors.loader, hmirrors.host.log _ _, ?_, ?_⟩
    · exact hmirrors.unambiguous.1.moves (.aside rfl rfl (Nat.le_refl _))
    · exact hmirrors.unambiguous.2.moves (.aside rfl rfl (Nat.le_refl _))

theorem loadAll (hm : Mirrors σ L L' h h') (paths : List Path) :
    L'.answersOf h' paths = L.answersOf h paths ∧
      Mirrors σ (L.loadAll h paths).2.1 (L'.loadAll h' paths).2.1 (L.loadAll h paths).2.2
        (L'.loadAll h' paths).2.2 := by
  induction paths generalizing L L' h h' with
  | nil => exact ⟨rfl, hm⟩
  | cons p rest ih =>
    obtain ⟨hanswer, hmirrors⟩ := hm.load p
    obtain ⟨hanswers, hlast⟩ := ih hmirrors
    rw [loadAll_cons, loadAll_cons, answersOf, answersOf, hanswer, hanswers]
    exact ⟨rfl, hlast⟩

theorem loadConfigured_fst (hm : Mirrors σ L L' h h') : (L'.loadConfigured h').1 = (L.loadConfigured h).1 := by
  have hconfig : L'.config = L.config := by rw [hm.loader]; rfl
  rw [loadConfigured, loadConfigured, hconfig, loadAll_fst, loadAll_fst, (hm.loadAll _).1]

end Mirrors

/-! ## Loads that register nothing -/

theorem renamed_of_references (hσ : ∀ l ∈ L.references, l.renamed σ = l) : L.renamed σ = L := by
  have hlibraries : L.libraries.mapValues (Library.renamed σ) = L.libraries :=
    mapValues_eq_self fun e he => hσ e.2 (mem_references.2 (.inl ⟨e, he, rfl⟩))
  have hindex : (L.index.mapValues fun e => { e with library := e.library.renamed σ }) = L.index :=
    mapValues_eq_self fun e he => by rw [hσ e.2.library (mem_references.2 (.inr ⟨e, he, rfl⟩))]
  simp only [renamed, hlibraries, hindex]

/-- A shift of the identities that come next leaves a loader as it is. -/
theorem renamed_shifted {births : Nat → Prop} {earlier : Host} {referred : Multiset Library}
    {held : Multiset Instance} (hs : Sound births earlier L h 0 referred held) (d : Nat) :
    L.renamed (shifted h.fresh d) = L := by
  have hb := hs.host.balanced
  refine renamed_of_references fun l hl => ?_
  obtain ⟨r, hr, -⟩ := hs.exists_record hl
  obtain ⟨v, hv⟩ := hb.resident_of_referred (Multiset.mem_add.2 (.inl hl))
  have hid := shifted_of_lt d (hb.record_lt_fresh hr)
  have hhome : shifted h.fresh d l.origin.mapping = l.origin.mapping :=
    shifted_of_lt d (hb.mapping_lt_fresh hv)
  simp only [Library.renamed, hid, hhome]

theorem host_mirrors_of_barren {referred : Multiset Library} {held : Multiset Instance}
    (hb : h.Balanced 0 referred held) (hs : h.Separate) {p : Path} (hbarren : Barren (L.tryLoad h p).1) :
    ∃ d, h.Mirrors (shifted h.fresh d) (L.tryLoad h p).2.2 := by
  obtain ⟨-, hrestored⟩ := restored_tryLoad hb hbarren
  have he := L.evolves_tryLoad h p
  obtain ⟨d, hd⟩ := Nat.exists_eq_add_of_le he.fresh
  have hmappings : Table.Mirrors id (Mapping.Mirrors h.files) h.mappings (L.tryLoad h p).2.2.mappings := by
    rcases reads_of_barren hbarren with hread | ⟨id, m, read, hp, hread, hclosed⟩
    · rw [hread.mappings]
      exact .refl (Mapping.Mirrors.refl h.files) _
    · have hopened : (h.note (.opening p)).locate p = some (id, m) := hp
      rw [hclosed.mappings, Host.mappings_closeMapping_congr hread.mappings]
      exact Host.Mirrors.closeMapping_hold (hb.log _) (hs.moves (.aside rfl rfl (Nat.le_refl _))) hopened
  have hrecords : Table.Mirrors id Record.Mirrors h.records (L.tryLoad h p).2.2.records := by
    rw [hrestored.records]
    exact .refl (fun r => (rfl : r.references = r.references)) _
  refine ⟨d, ?_⟩
  exact
    { mono := strictMono_shifted h.fresh d
      fresh := fun i => by rw [shifted_add, hd]
      files := he.files
      mappings := hmappings.shifted hb.fresh.1 d
      records := hrecords.shifted hb.fresh.2.1 d }

/-- After a load that registers nothing, of this loader or of another one, a loader mirrors itself. The load
that only says why it registers nothing makes no difference to that. -/
theorem mirrors_of_barren {births : Nat → Prop} {earlier : Host} {referred : Multiset Library}
    {held : Multiset Instance} (hs : Sound births earlier L h 0 referred held) (hu : h.Unambiguous)
    {other : Loader} {p : Path} (hbarren : Barren (other.tryLoad h p).1) :
    ∃ σ, Mirrors σ L L h (other.tryLoad h p).2.2 ∧ Mirrors σ L L h (other.load h p).2.2 := by
  obtain ⟨d, hhost⟩ := host_mirrors_of_barren hs.host.balanced hu.separate hbarren
  have hself := (renamed_shifted hs d).symm
  have hu' := (other.evolves_tryLoad h p).invariant (fun _ _ hm hu => hu.moves hm) hu
  refine ⟨shifted h.fresh d, ⟨hself, hhost, hu, hu'⟩, ?_⟩
  cases htry : (other.tryLoad h p).1 with
  | ok names =>
    rw [load_of_ok htry]
    exact ⟨hself, hhost, hu, hu'⟩
  | error e =>
    rw [load_of_error htry]
    exact ⟨hself, hhost.log_right _, hu, hu'.moves (.aside rfl rfl (Nat.le_refl _))⟩

end Loader

end PluginHost
