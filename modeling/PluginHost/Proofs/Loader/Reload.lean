import PluginHost.Proofs.Host.Strings
import PluginHost.Proofs.Loader.Frame
import PluginHost.Proofs.Loader.Outline
import PluginHost.Proofs.World.Apart

/-!
# Loading a library again

Every load opens its library anew and records another one. The names that were let in belong to the key by
then, so that the same are let in again, and the library that was recorded before loses every reference: what
the loader keeps beside the new one is what it kept beside the old one.

* `Loader.Keeps`: the libraries that stay when names are registered under a key.
* `Host.Balanced.holds_of_exchange`: holds when one library takes the place of another.
* `Loader.census`: the table with the live counts.
* `Loader.tryLoad_again`: a load after a load that succeeded.
-/

namespace PluginHost

set_option autoImplicit false

open PluginHost.Table

/-! ## One library in place of another -/

theorem Host.Balanced.holds_of_exchange {h₁ h₂ : Host} {referred₁ referred₂ : Multiset Library}
    {held₁ held₂ : Multiset Instance} (hb₁ : h₁.Balanced 0 referred₁ held₁)
    (hb₂ : h₂.Balanced 0 referred₂ held₂) {R₁ R₂ : Library} (hhome : Host.home R₁ = Host.home R₂)
    {K : Library → Prop} (hK₁ : ¬ K R₁) (hK₂ : ¬ K R₂) (hl₁ : ∀ l, l ∈ h₁.libraries ↔ l = R₁ ∨ K l)
    (hl₂ : ∀ l, l ∈ h₂.libraries ↔ l = R₂ ∨ K l) (id : Nat) :
    h₂.mappings.counter Mapping.holds id = h₁.mappings.counter Mapping.holds id := by
  have hfirst : R₁ ::ₘ h₁.libraries.erase R₁ = h₁.libraries :=
    Multiset.cons_erase ((hl₁ R₁).2 (.inl rfl))
  have hrest : ∀ l, l ∈ h₁.libraries.erase R₁ ↔ K l := by
    intro l
    rw [hb₁.libraries_nodup.mem_erase_iff, hl₁]
    constructor
    · rintro ⟨hne, heq | hK⟩
      · exact absurd heq hne
      · exact hK
    · intro hK
      refine ⟨?_, .inr hK⟩
      rintro rfl
      exact hK₁ hK
  have hsecond : h₂.libraries = R₂ ::ₘ h₁.libraries.erase R₁ := by
    have hnodup : (R₂ ::ₘ h₁.libraries.erase R₁).Nodup := by
      refine Multiset.nodup_cons.2 ⟨?_, hb₁.libraries_nodup.erase R₁⟩
      rw [hrest]
      exact hK₂
    refine (Multiset.Nodup.ext hb₂.libraries_nodup hnodup).2 fun l => ?_
    rw [Multiset.mem_cons, hrest]
    exact hl₂ l
  rw [hb₁.mappings.counts, hb₂.mappings.counts, hsecond, ← hfirst, Multiset.map_cons, Multiset.map_cons,
    hhome, Multiset.erase_cons_head]

namespace Loader

/-! ## What a registration keeps -/

/-- The library is listed under another key, or behind a name that is not among these. -/
def Keeps (L : Loader) (key : Path) (names : List String) (l : Library) : Prop :=
  (∃ q, ¬ (key == q) = true ∧ L.libraries.find? q = some l) ∨
    ∃ n e, n ∉ names ∧ L.index.find? n = some e ∧ e.library = l

variable {L : Loader} {library l : Library} {infos : List PluginInfo}

theorem Keeps.mem_references (hl : L.libraries.Distinct) (hi : L.index.Distinct) {key : Path}
    {names : List String} (hk : L.Keeps key names l) : l ∈ L.references := by
  apply (mem_references_iff hl hi).2
  rcases hk with ⟨q, -, hq⟩ | ⟨n, e, -, he, hlib⟩
  · exact .inl ⟨q, hq⟩
  · exact .inr ⟨n, e, he, hlib⟩

theorem find?_index_registered_of_notMem {n : String} (hn : n ∉ infos.map PluginInfo.name) :
    (L.registered library infos).index.find? n = L.index.find? n := by
  apply find?_indexed_of_ne
  exact fun info hinfo hname => hn (List.mem_map.2 ⟨info, hinfo, hname⟩)

theorem find?_libraries_registered (L : Loader) (library : Library) (infos : List PluginInfo) (q : Path) :
    (L.registered library infos).libraries.find? q =
      if library.path == q then some library else L.libraries.find? q := find?_put _ _ _ _

theorem keeps_registered :
    (L.registered library infos).Keeps library.path (infos.map PluginInfo.name) l ↔
      L.Keeps library.path (infos.map PluginInfo.name) l := by
  constructor
  · rintro (⟨q, hq, hfind⟩ | ⟨n, e, hn, he, hlib⟩)
    · rw [find?_libraries_registered, if_neg hq] at hfind
      exact .inl ⟨q, hq, hfind⟩
    · rw [find?_index_registered_of_notMem hn] at he
      exact .inr ⟨n, e, hn, he, hlib⟩
  · rintro (⟨q, hq, hfind⟩ | ⟨n, e, hn, he, hlib⟩)
    · refine .inl ⟨q, hq, ?_⟩
      rw [find?_libraries_registered, if_neg hq, hfind]
    · refine .inr ⟨n, e, hn, ?_, hlib⟩
      rw [find?_index_registered_of_notMem hn, he]

/-- A loader refers to what it registered last, and to what it kept. -/
theorem mem_references_registered_iff (hl : L.libraries.Distinct) (hi : L.index.Distinct) :
    l ∈ (L.registered library infos).references ↔
      l = library ∨ L.Keeps library.path (infos.map PluginInfo.name) l := by
  have hl' : (L.registered library infos).libraries.Distinct := hl.put _ _
  have hi' : (L.registered library infos).index.Distinct := distinct_indexed hi infos
  rw [← keeps_registered]
  constructor
  · intro hmem
    rcases (mem_references_iff hl' hi').1 hmem with ⟨q, hq⟩ | ⟨n, e, he, hlib⟩
    · by_cases hkey : (library.path == q) = true
      · rw [find?_libraries_registered, if_pos hkey, Option.some.injEq] at hq
        exact .inl hq.symm
      · exact .inr (.inl ⟨q, hkey, hq⟩)
    · by_cases hn : n ∈ infos.map PluginInfo.name
      · obtain ⟨e', he', hlib'⟩ : ∃ e', (indexed library L.index infos).find? n = some e' ∧
            e'.library = library := exists_find?_indexed (List.mem_map.1 hn) L.index
        have hsame : e = e' := Option.some.inj (he.symm.trans he')
        exact .inl (by rw [← hlib, hsame, hlib'])
      · exact .inr (.inr ⟨n, e, hn, he, hlib⟩)
  · rintro (rfl | hkeeps)
    · refine (mem_references_iff hl' hi').2 (.inl ⟨l.path, ?_⟩)
      rw [find?_libraries_registered, if_pos BEq.rfl]
    · exact hkeeps.mem_references hl' hi'

/-! ## Loads by the code that they find -/

variable {h : Host} {p : Path} {id : Nat} {m : Mapping} {n : Negotiated} {names : List String}

theorem tryLoad_of_locate (L : Loader) (hexists : h.files.exists? p = true)
    (hp : h.locate p = some (id, m)) (hn : (negotiate m.image.exports).2 = .ok n) :
    let chosen := L.admitted (libraryKey h.files p) n.infos
    let l := record (max h.fresh (id + 1)) (libraryKey h.files p) (m.origin id) chosen
    (L.tryLoad h p).1 = .ok l.plugins ∧
      (L.tryLoad h p).2.1 = if chosen.isEmpty then L else L.registered l chosen := by
  obtain ⟨hanswer, hloader⟩ := L.tryLoad_outcome hexists
  rw [hanswer, hloader, hp]
  simp only [Option.map_some, Host.code, outcome, hn, accepted_eq]
  cases L.admitted (libraryKey h.files p) n.infos with
  | nil => exact ⟨rfl, rfl⟩
  | cons info rest => exact ⟨rfl, rfl⟩

theorem exists_of_tryLoad_ok (hok : (L.tryLoad h p).1 = .ok names) : h.files.exists? p = true := by
  by_contra hno
  simp [tryLoad, hno] at hok

theorem evolves_tryLoad_of_locate (L : Loader) (hexists : h.files.exists? p = true)
    (hp : h.locate p = some (id, m)) :
    ((h.note (.opening p)).hold id m).Evolves (L.tryLoad h p).2.2 := by
  have hlocate : (h.note (.opening p)).locate p = some (id, m) := hp
  simp only [tryLoad, hexists, if_true, Host.openLibrary, hlocate, Option.map_some]
  exact evolves_receive _ _ _ _ _

/-! ## A load after a load -/

/-- The libraries in the table, with their names and how many of their instances live. -/
def census (L : Loader) (h : Host) : Table Path (Path × List String × Nat) :=
  L.libraries.mapValues fun l => (l.path, l.plugins, h.live l)

variable {births : Nat → Prop} {earlier : Host} {referred : Multiset Library} {held : Multiset Instance}

theorem unambiguous_tryLoad (L : Loader) (hu : h.Unambiguous) (p : Path) :
    (L.tryLoad h p).2.2.Unambiguous :=
  (L.evolves_tryLoad h p).invariant (fun _ _ hm hu => hu.moves hm) hu

/-- A path that was loaded leads to the same code again. -/
theorem locate_after_tryLoad (hs : Sound births earlier L h 0 referred held) (hu : h.Unambiguous)
    (hexists : h.files.exists? p = true) (hp : h.locate p = some (id, m)) {l : Library}
    (hhome : Host.home l = id) (hl : l ∈ (L.tryLoad h p).2.1.references) :
    ∃ v, (L.tryLoad h p).2.2.locate p = some (id, v) ∧ v.image = m.image := by
  have hreferred : l ∈ (L.tryLoad h p).2.1.references + referred := Multiset.mem_add.2 (.inl hl)
  obtain ⟨v, hv⟩ := (hs.tryLoad p).host.balanced.resident_of_referred hreferred
  rw [hhome] at hv
  have hopened : (h.note (.opening p)).Unambiguous :=
    hu.moves (.aside rfl rfl (Nat.le_refl _))
  have hp' : (h.note (.opening p)).locate p = some (id, m) := hp
  exact ⟨v, hopened.locate_again hp' (evolves_tryLoad_of_locate L hexists hp) (unambiguous_tryLoad L hu p) hv⟩

section Twice

variable {h₁ h₂ : Host} {R₁ R₂ : Library} (hs : Sound births earlier L h 0 referred held)
  (hs₁ : Sound births earlier (L.registered R₁ infos) h₁ 0 referred held)
  (hs₂ : Sound births earlier ((L.registered R₁ infos).registered R₂ infos) h₂ 0 referred held)
  (hpath : R₂.path = R₁.path) (hnew₁ : h.records.find? R₁.id = none)
  (hnew₂ : h₁.records.find? R₂.id = none)

include hs hs₁ hs₂ hpath hnew₁ hnew₂

theorem holds_of_registered_twice (hhome : Host.home R₁ = Host.home R₂) (id : Nat) :
    h₂.mappings.counter Mapping.holds id = h₁.mappings.counter Mapping.holds id := by
  have hb := hs.host.balanced
  have hb₁ := hs₁.host.balanced
  have hb₂ := hs₂.host.balanced
  -- beside the library of the registration there is the same before, between and after
  let K : Library → Prop := fun l =>
    L.Keeps R₁.path (infos.map PluginInfo.name) l ∨ l ∈ referred + h.makers
  have hmakers₁ : h₁.makers = h.makers := by rw [hb₁.makers_eq, hb.makers_eq]
  have hmakers₂ : h₂.makers = h.makers := by rw [hb₂.makers_eq, hb.makers_eq]
  have hl₁ : ∀ l, l ∈ h₁.libraries ↔ l = R₁ ∨ K l := by
    intro l
    rw [hb₁.mem_libraries, hmakers₁, add_assoc, Multiset.mem_add,
      mem_references_registered_iff hs.libraries hs.index, or_assoc]
  have hl₂ : ∀ l, l ∈ h₂.libraries ↔ l = R₂ ∨ K l := by
    intro l
    rw [hb₂.mem_libraries, hmakers₂, add_assoc, Multiset.mem_add,
      mem_references_registered_iff hs₁.libraries hs₁.index, hpath, keeps_registered, or_assoc]
  refine hb₁.holds_of_exchange hb₂ hhome (fun hK => ?_) (fun hK => ?_) hl₁ hl₂ id
  · have howned : R₁ ∈ L.references + referred + h.makers := by
      rw [add_assoc, Multiset.mem_add]
      exact hK.imp_left fun hk => hk.mem_references hs.libraries hs.index
    obtain ⟨r, hr, -⟩ := hb.records.kept R₁ howned
    rw [hnew₁] at hr
    cases hr
  · obtain ⟨r, hr, -⟩ := hb₁.records.kept R₂ (hb₁.mem_libraries.1 ((hl₁ R₂).2 (.inr hK)))
    rw [hnew₂] at hr
    cases hr

theorem census_of_registered_twice (hplugins : R₂.plugins = R₁.plugins) :
    ((L.registered R₁ infos).registered R₂ infos).census h₂ = (L.registered R₁ infos).census h₁ := by
  have hlive : ∀ l, h₂.live l = h₁.live l := fun l => by
    rw [hs₂.host.balanced.live_eq, hs₁.host.balanced.live_eq]
  have hnone₁ : h₁.live R₁ = 0 := by
    rw [hs₁.host.balanced.live_eq, ← hs.host.balanced.live_eq, Host.live, hnew₁]
  have hnone₂ : h₁.live R₂ = 0 := by rw [Host.live, hnew₂]
  simp only [census, registered, hlive, hpath, put_put, mapValues_put, hplugins, hnone₁, hnone₂]

end Twice

/-- After a load that succeeds the next one answers the same names. It leaves the loader as it was, apart
from identities, and every hold. -/
theorem tryLoad_again (hs : Sound births earlier L h 0 referred held) (hu : h.Unambiguous)
    (hok : (L.tryLoad h p).1 = .ok names) :
    let first := (L.tryLoad h p).2
    let second := first.1.tryLoad first.2 p
    second.1 = .ok names ∧ second.2.1.outline = first.1.outline ∧
      second.2.1.census second.2.2 = first.1.census first.2 ∧
      ∀ id, second.2.2.mappings.counter Mapping.holds id = first.2.mappings.counter Mapping.holds id := by
  intro first second
  have hs₁ := hs.tryLoad p
  have hs₂ := hs₁.tryLoad p
  have hfiles : first.2.files = h.files := (L.evolves_tryLoad h p).files
  by_cases hnames : names = []
  · have hbarren : Barren (L.tryLoad h p).1 := by
      rw [hok, hnames]
      exact fun _ heq => (Except.ok.inj heq).symm
    obtain ⟨hloader, hrestored⟩ := restored_tryLoad hs.host.balanced hbarren
    have hagain : second.1 = (L.tryLoad h p).1 := by
      show (first.1.tryLoad first.2 p).1 = _
      rw [show first.1 = L from hloader]
      exact L.tryLoad_fst_congr hfiles (hrestored.images p)
    obtain ⟨hloader₂, hrestored₂⟩ := restored_tryLoad hs₁.host.balanced (hagain ▸ hbarren)
    refine ⟨hagain.trans hok, congrArg outline hloader₂, ?_, fun id => hrestored₂.holds id⟩
    show second.2.1.census second.2.2 = first.1.census first.2
    rw [show second.2.1 = first.1 from hloader₂, census, census]
    simp only [hrestored₂.live, second, first]
  · obtain ⟨id, m, n, -, hp, hn, -⟩ := tryLoad_eq_register hok
    have hexists := exists_of_tryLoad_ok hok
    obtain ⟨hanswer, hloader⟩ := L.tryLoad_of_locate hexists hp hn
    let chosen := L.admitted (libraryKey h.files p) n.infos
    let R₁ := record (max h.fresh (id + 1)) (libraryKey h.files p) (m.origin id) chosen
    have hplugins : R₁.plugins = names := Except.ok.inj (hanswer.symm.trans hok)
    have hchosen : ¬ chosen.isEmpty = true := by
      intro hnone
      rw [← hplugins, plugins_record_eq_nil_iff] at hnames
      exact hnames (List.isEmpty_iff.1 hnone)
    have hfirst : first.1 = L.registered R₁ chosen := hloader.trans (if_neg hchosen)
    have hl : R₁ ∈ first.1.references := by
      rw [hfirst]
      exact (mem_references_registered_iff hs.libraries hs.index).2 (.inl rfl)
    obtain ⟨v, hp', himage⟩ := locate_after_tryLoad hs hu hexists hp (l := R₁) rfl hl
    have hexists' : first.2.files.exists? p = true := by rw [hfiles, hexists]
    have hn' : (negotiate v.image.exports).2 = .ok n := by rw [himage, hn]
    obtain ⟨hanswer', hloader'⟩ := first.1.tryLoad_of_locate hexists' hp' hn'
    have hsame : first.1.admitted (libraryKey first.2.files p) n.infos = chosen := by
      rw [hfiles, hfirst]
      exact L.admitted_registered BEq.rfl n.infos
    rw [hsame] at hanswer' hloader'
    let R₂ := record (max first.2.fresh (id + 1)) (libraryKey first.2.files p) (v.origin id) chosen
    have hsecond : second.2.1 = (L.registered R₁ chosen).registered R₂ chosen := by
      rw [← hfirst]
      exact hloader'.trans (if_neg hchosen)
    have hpath : R₂.path = R₁.path := by
      show libraryKey first.2.files p = libraryKey h.files p
      rw [hfiles]
    have hnew₁ : h.records.find? R₁.id = none := hs.host.balanced.fresh.2.1 _ (Nat.le_max_left _ _)
    have hnew₂ : first.2.records.find? R₂.id = none := hs₁.host.balanced.fresh.2.1 _ (Nat.le_max_left _ _)
    have hs₁' : Sound births earlier (L.registered R₁ chosen) first.2 0 referred held := hfirst ▸ hs₁
    have hs₂' : Sound births earlier ((L.registered R₁ chosen).registered R₂ chosen) second.2.2 0 referred
        held := hsecond ▸ hs₂
    refine ⟨hanswer'.trans (congrArg Except.ok hplugins), ?_, ?_, ?_⟩
    · rw [hsecond, hfirst, outline_registered, outline_registered, hpath]
      have hd : L.outline.index.Distinct := hs.index.mapValues fun e => (e.info, e.library.path)
      exact Outline.registered_registered hd _ _ _
    · rw [hsecond, hfirst]
      exact census_of_registered_twice hs hs₁' hs₂' hpath hnew₁ hnew₂ rfl
    · exact holds_of_registered_twice hs hs₁' hs₂' hpath hnew₁ hnew₂ rfl

end Loader

end PluginHost
