import PluginHost.Loader.Query
import PluginHost.Proofs.Loader.Index

/-!
# Settled plugins

A known plugin is settled when the library listed under the path of its library is that library. A
registration settles the plugins that it names. It unsettles the others whose library has the same path:
they keep their old library, which is no longer listed.

* `Loader.Settled`: the table and the index agree about a plugin.
* `Loader.Consistent.settled_iff`: the library that is listed tells whether they do.
* `Loader.settled_tryLoad_iff`: what loading a library does.
-/

namespace PluginHost.Loader

set_option autoImplicit false

open PluginHost.Table

/-- The library listed under the path of a known plugin is the one that it came with. -/
def Settled (L : Loader) (n : String) : Prop :=
  ∀ e, L.index.find? n = some e → L.libraries.find? e.library.path = some e.library

/-! ## What is listed -/

namespace Consistent

variable {L : Loader} {l : Library}

theorem mem_listed (hc : L.Consistent) : l ∈ L.listed ↔ L.libraries.find? l.path = some l := by
  have hvalues : l ∈ L.listed ↔ l ∈ L.libraries.bag := by
    rw [Loader.listed, List.mem_mergeSort, mem_bag]
  rw [hvalues, mem_bag_iff_find? hc.libraries]
  constructor
  · rintro ⟨k, hk⟩
    rw [find?_congr L.libraries (hc.filed k l hk)]
    exact hk
  · exact fun hl => ⟨l.path, hl⟩

/-- A known plugin has one listed library with the path of its library, and it is settled exactly when
it was registered with that one. -/
theorem settled_iff (hc : L.Consistent) {n : String} {e : IndexEntry}
    (he : L.index.find? n = some e) (hl : L.libraries.find? e.library.path = some l) :
    (l = e.library ↔ n ∈ l.plugins) ∧ (L.Settled n ↔ n ∈ l.plugins) := by
  have hiff : l = e.library ↔ n ∈ l.plugins := by
    constructor
    · rintro rfl
      exact hc.named n e he
    · exact hc.latest n e l he hl
  refine ⟨hiff, ?_⟩
  rw [← hiff]
  constructor
  · intro hsettled
    have hown := hsettled e he
    rw [hl] at hown
    exact Option.some.inj hown
  · rintro rfl e' he'
    rw [he, Option.some.injEq] at he'
    rw [← he']
    exact hl

end Consistent

/-! ## Registering -/

/-- After a registration a plugin is settled if it was named; otherwise it must have been settled before,
and if it is known, its library has another path. -/
theorem settled_registered_iff {L : Loader} (hc : L.Consistent) {library : Library}
    {infos : List PluginInfo} (hp : ∀ n, n ∈ library.plugins ↔ ∃ info ∈ infos, info.name = n)
    (n : String) : (L.registered library infos).Settled n ↔
      n ∈ library.plugins ∨
        L.Settled n ∧ ∀ e, L.index.find? n = some e → ¬ (library.path == e.library.path) = true := by
  by_cases hn : n ∈ library.plugins
  · refine ⟨fun _ => .inl hn, fun _ e he => ?_⟩
    rcases find?_indexed he with ⟨-, -, hlib⟩ | ⟨hnone, -⟩
    · rw [hlib]
      exact find?_put_self _ _ _
    · obtain ⟨info, hinfo, hname⟩ := (hp n).1 hn
      exact absurd hname (hnone info hinfo)
  · have hsame : (L.registered library infos).index.find? n = L.index.find? n := by
      refine find?_indexed_of_ne (fun info hinfo hname => hn ?_) L.index
      exact (hp n).2 ⟨info, hinfo, hname⟩
    simp only [Settled, hsame, hn, false_or]
    constructor
    · intro hsettled
      have hother : ∀ e, L.index.find? n = some e → ¬ (library.path == e.library.path) = true := by
        intro e he hkey
        have hown := hsettled e he
        simp only [Loader.registered, find?_put, hkey, if_true, Option.some.injEq] at hown
        -- a library that was not registered with the plugin is not the one it came with
        rw [hown] at hn
        exact hn (hc.named n e he)
      refine ⟨fun e he => ?_, hother⟩
      have hown := hsettled e he
      simp only [Loader.registered, find?_put, hother e he] at hown
      exact hown
    · rintro ⟨hsettled, hother⟩ e he
      simp only [Loader.registered, find?_put, hother e he]
      exact hsettled e he

/-! ## Loading -/

/-- A library that is loaded names nothing and leaves the loader as it is, or it is registered under its
key with the names that are answered. -/
theorem tryLoad_ok {L : Loader} {h : Host} {p : Path} {names : List String}
    (hok : (L.tryLoad h p).1 = .ok names) :
    (names = [] ∧ (L.tryLoad h p).2.1 = L) ∨
      (names ≠ [] ∧ ∃ library infos, (L.tryLoad h p).2.1 = L.registered library infos ∧
        library.path = libraryKey h.files p ∧ library.plugins = names ∧
        ∀ n, n ∈ library.plugins ↔ ∃ info ∈ infos, info.name = n) := by
  rcases L.tryLoad_loader h p with ⟨hnames, heq⟩ | ⟨infos, _, ⟨id, o, rfl⟩, hnames, hsome, heq⟩
  · exact .inl ⟨hnames names hok, heq⟩
  · rw [hok] at hnames
    rw [← Except.ok.inj hnames] at hsome
    exact .inr ⟨hsome, _, _, heq, rfl, (Except.ok.inj hnames).symm, fun _ => mem_plugins_record⟩

/-- Loading a library settles the plugins that it names, and unsettles the others that belong to its
key. -/
theorem settled_tryLoad_iff {L : Loader} (hc : L.Consistent) {h : Host} {p : Path}
    {names : List String} (hok : (L.tryLoad h p).1 = .ok names) (n : String) :
    (L.tryLoad h p).2.1.Settled n ↔
      n ∈ names ∨ L.Settled n ∧ (names = [] ∨
        ∀ e, L.index.find? n = some e → ¬ (libraryKey h.files p == e.library.path) = true) := by
  rcases tryLoad_ok hok with ⟨rfl, heq⟩ | ⟨hsome, library, infos, heq, hpath, hplugins, hp⟩
  · rw [heq]
    simp
  · rw [heq, settled_registered_iff hc hp, hpath, hplugins]
    simp only [hsome, false_or]

end PluginHost.Loader
