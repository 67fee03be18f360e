import PluginHost.Proofs.Loader.Forgotten
import PluginHost.Proofs.Loader.Frame

/-!
# Exclusive names

Under the policy that rejects duplicates a name belongs to the path that came first, for as long as that
path is listed. All plugins of a library are judged against the index before any of them is put into it,
and those whose name belongs to another path are left out.

* `Loader.index_load_of_other`: loading leaves a name alone that belongs to another path.
* `Loader.Owning`: every plugin that a listed library was registered with is known with that library.
* `Loader.owning_tryLoad`, `Loader.owning_remove`: loading and forgetting keep it so.
-/

namespace PluginHost.Loader

set_option autoImplicit false

open PluginHost.Table

/-! ## What is accepted -/

theorem owner_of_accepted {L : Loader} (hreject : L.config.duplicatePolicy = .reject) {key : Path}
    {infos : List PluginInfo} {info : PluginInfo} (hinfo : info ∈ L.accepted key infos) {e : IndexEntry}
    (he : L.index.find? info.name = some e) : (e.library.path == key) = true := by
  have haccepts : L.accepts key info = true := (List.mem_filter.1 hinfo).2
  by_contra hother
  simp [accepts, judge, he, hother, hreject] at haccepts

theorem ne_of_accepted {L : Loader} (hreject : L.config.duplicatePolicy = .reject) {key : Path}
    {n : String} {e : IndexEntry} (he : L.index.find? n = some e)
    (hother : ¬ (e.library.path == key) = true) {infos : List PluginInfo} {info : PluginInfo}
    (hinfo : info ∈ L.accepted key infos) : info.name ≠ n := by
  rintro rfl
  exact hother (owner_of_accepted hreject hinfo he)

/-! ## Loading beside an owner -/

theorem index_tryLoad_of_other {L : Loader} (hreject : L.config.duplicatePolicy = .reject) {h : Host}
    {p : Path} {n : String} {e : IndexEntry} (he : L.index.find? n = some e)
    (hother : ¬ (e.library.path == libraryKey h.files p) = true) :
    (L.tryLoad h p).2.1.index.find? n = some e ∧
      ∀ names, (L.tryLoad h p).1 = .ok names → n ∉ names := by
  rcases L.tryLoad_loader h p with ⟨hnames, heq⟩ | ⟨infos, _, ⟨id, o, rfl⟩, hnames, -, heq⟩
  · rw [heq]
    refine ⟨he, fun names hok => ?_⟩
    simp [hnames names hok]
  · have hne : ∀ info ∈ L.accepted (libraryKey h.files p) infos, info.name ≠ n :=
      fun _ hinfo => ne_of_accepted hreject he hother hinfo
    refine ⟨?_, fun names hok hn => ?_⟩
    · rw [heq]
      exact (find?_indexed_of_ne hne L.index).trans he
    · rw [hnames, Except.ok.injEq] at hok
      rw [← hok] at hn
      obtain ⟨info, hinfo, hname⟩ := mem_plugins_record.1 hn
      exact hne info hinfo hname

theorem index_load_of_other {L : Loader} (hreject : L.config.duplicatePolicy = .reject) {h : Host}
    {p : Path} {n : String} {e : IndexEntry} (he : L.index.find? n = some e)
    (hother : ¬ (e.library.path == libraryKey h.files p) = true) :
    (L.load h p).2.1.index.find? n = some e ∧ n ∉ (L.load h p).1 := by
  obtain ⟨hkept, hnames⟩ := index_tryLoad_of_other hreject he hother
  refine ⟨by rw [load_loader]; exact hkept, ?_⟩
  unfold load
  split
  · next names _ _ heq => exact hnames names (by rw [heq])
  · simp

theorem index_loadAll_of_other {L : Loader} (hreject : L.config.duplicatePolicy = .reject) {h : Host}
    {paths : List Path} {n : String} {e : IndexEntry} (he : L.index.find? n = some e)
    (hother : ∀ p ∈ paths, ¬ (e.library.path == libraryKey h.files p) = true) :
    (L.loadAll h paths).2.1.index.find? n = some e ∧ n ∉ (L.loadAll h paths).1 := by
  simp only [loadAll, Ordered.mem_ofList]
  have hnone : n ∉ ([] : List String) := by simp
  generalize ([] : List String) = names at hnone
  induction paths generalizing L h names with
  | nil => exact ⟨he, hnone⟩
  | cons p paths ih =>
    obtain ⟨hkept, hnew⟩ := index_load_of_other hreject he (hother p List.mem_cons_self)
    refine ih ?_ hkept (fun q hq => ?_) (names ++ (L.load h p).1) ?_
    · rw [load_loader, config_tryLoad]
      exact hreject
    · rw [(L.evolves_load h p).files]
      exact hother q (List.mem_cons_of_mem p hq)
    · simp [hnone, hnew]

/-- Loading never gives a name to another path. -/
theorem owner_tryLoad {L : Loader} (hreject : L.config.duplicatePolicy = .reject) (h : Host) (p : Path)
    {n : String} {e : IndexEntry} (he : L.index.find? n = some e) :
    ∃ e', (L.tryLoad h p).2.1.index.find? n = some e' ∧
      (e'.library.path == e.library.path) = true := by
  by_cases hown : (e.library.path == libraryKey h.files p) = true
  · rcases L.tryLoad_loader h p with ⟨-, heq⟩ | ⟨infos, library, ⟨id, o, rfl⟩, -, -, heq⟩
    · rw [heq]
      exact ⟨e, he, BEq.rfl⟩
    · rw [heq]
      by_cases hn : ∃ info ∈ L.accepted (libraryKey h.files p) infos, info.name = n
      · obtain ⟨e', he', hlib⟩ := exists_find?_indexed hn L.index
        refine ⟨e', he', ?_⟩
        rw [hlib]
        exact BEq.symm hown
      · refine ⟨e, ?_, BEq.rfl⟩
        exact (find?_indexed_of_ne (fun info hinfo hname => hn ⟨info, hinfo, hname⟩) L.index).trans he
  · exact ⟨e, (index_tryLoad_of_other hreject he hown).1, BEq.rfl⟩

/-! ## Owning what is listed -/

/-- Every plugin that a listed library was registered with is known with that library. -/
def Owning (L : Loader) : Prop :=
  ∀ p l n, L.libraries.find? p = some l → n ∈ l.plugins →
    ∃ e, L.index.find? n = some e ∧ e.library = l

theorem owning_withConfig (config : Config) : (withConfig config).Owning := by
  intro p l n hl
  simp [withConfig] at hl

theorem owning_tryLoad {L : Loader} (hc : L.Consistent) (hreject : L.config.duplicatePolicy = .reject)
    (ho : L.Owning) (h : Host) (p : Path) : (L.tryLoad h p).2.1.Owning := by
  rcases L.tryLoad_loader h p with ⟨-, heq⟩ | ⟨infos, _, ⟨id, o, rfl⟩, -, -, heq⟩
  · rw [heq]; exact ho
  · rw [heq]
    intro q l n hl hn
    simp only [registered, find?_put] at hl
    split at hl
    · rw [← Option.some.inj hl] at hn ⊢
      exact exists_find?_indexed (mem_plugins_record.1 hn) L.index
    · next hq =>
      -- another library is listed there, so its names are not among those that were accepted
      obtain ⟨e, he, rfl⟩ := ho q l n hl hn
      have hother : ¬ (e.library.path == libraryKey h.files p) = true := by
        intro hown
        exact hq (BEq.trans (BEq.symm hown) (hc.filed q e.library hl))
      refine ⟨e, (find?_indexed_of_ne (fun info hinfo => ?_) L.index).trans he, rfl⟩
      exact ne_of_accepted hreject he hother hinfo

theorem owning_remove {L : Loader} (hc : L.Consistent) (ho : L.Owning) (key : Path) :
    (L.remove key).Owning := by
  intro p l n hl hn
  simp only [remove, find?_erase] at hl
  split at hl
  · simp at hl
  · next hother =>
    obtain ⟨e, he, rfl⟩ := ho p l n hl hn
    refine ⟨e, ((hc.without_remove key).index n e).2 ⟨he, fun hkey => hother ?_⟩, rfl⟩
    exact BEq.trans (BEq.symm hkey) (hc.filed p e.library hl)

theorem Owning.eq_of_mem {L : Loader} (ho : L.Owning) {p p' : Path} {l l' : Library} {n : String}
    (hl : L.libraries.find? p = some l) (hl' : L.libraries.find? p' = some l') (hn : n ∈ l.plugins)
    (hn' : n ∈ l'.plugins) : l = l' := by
  obtain ⟨e, he, hlib⟩ := ho p l n hl hn
  obtain ⟨e', he', hlib'⟩ := ho p' l' n hl' hn'
  rw [he, Option.some.injEq] at he'
  rw [← hlib, ← hlib', he']

end PluginHost.Loader
