import PluginHost.Proofs.Loader.Settled

/-!
# What is left after forgetting

Forgetting takes one key: the library listed under it goes, with every plugin whose library has that
path, and all else stays. Which key a path stands for is asked of the files as they are at that moment,
so a path that was canonical once may stand for another library by now.

* `Loader.Without`: what is left of a loader without a key.
* `Loader.Redirected`: a path leads by now to another listed library.
* `Loader.forgetOf_known`: forgetting the library of a known plugin takes one key, which is the path of
  that library exactly when the path is not redirected.
-/

namespace PluginHost.Loader

set_option autoImplicit false

open PluginHost.Table

/-! ## Without a key -/

/-- `L'` is `L` without the library listed under `key` and the plugins of libraries with that path. -/
structure Without (L L' : Loader) (key : Path) : Prop where
  config : L'.config = L.config
  index : ∀ n e, L'.index.find? n = some e ↔
    L.index.find? n = some e ∧ ¬ (e.library.path == key) = true
  listed : ∀ l, l ∈ L'.listed ↔ l ∈ L.listed ∧ ¬ (l.path == key) = true

namespace Without

variable {L L' : Loader} {key key' : Path}

theorem of_beq (h : L.Without L' key) (hkey : (key == key') = true) : L.Without L' key' where
  config := h.config
  index := by
    intro n e
    rw [h.index, BEq.congr_right hkey]
  listed := by
    intro l
    rw [h.listed, BEq.congr_right hkey]

theorem index_eq_none (h : L.Without L' key) {n : String} {e : IndexEntry}
    (he : L.index.find? n = some e) (hkey : (e.library.path == key) = true) :
    L'.index.find? n = none := by
  by_contra hknown
  obtain ⟨e', he'⟩ := Option.ne_none_iff_exists'.1 hknown
  obtain ⟨hold, hother⟩ := (h.index n e').1 he'
  rw [he, Option.some.injEq] at hold
  rw [← hold] at hother
  exact hother hkey

end Without

theorem Consistent.without_remove {L : Loader} (hc : L.Consistent) (key : Path) :
    L.Without (L.remove key) key where
  config := rfl
  index := by
    intro n e
    have hfilter := find?_filter hc.index (fun e => !(e.library.path == key)) n
    have hindex : (L.remove key).index.find? n =
        (L.index.find? n).filter fun e => !(e.library.path == key) := hfilter
    rw [hindex, Option.filter_eq_some_iff]
    simp
  listed := by
    intro l
    have herase := find?_erase L.libraries l.path key
    rw [(hc.remove key).mem_listed, hc.mem_listed]
    simp only [Loader.remove]
    rw [herase, BEq.comm]
    by_cases hkey : (l.path == key) = true <;> simp [hkey]

/-! ## The key that a path stands for -/

/-- The path leads by now to a listed library with another path. -/
def Redirected (L : Loader) (files : FileTree) (p : Path) : Prop :=
  ∃ k, files.canonical? p = some k ∧ L.libraries.contains k = true ∧ ¬ (k == p) = true

/-- A listed path stands for some listed key: for what it leads to by now if it is redirected, and for
itself otherwise. -/
theorem listedKey_of_listed {L : Loader} {p : Path} (hp : L.libraries.contains p = true)
    (files : FileTree) :
    ∃ key, L.listedKey files p = some key ∧
      (key = p ∨ files.canonical? p = some key) ∧ ((key == p) = true ↔ ¬ L.Redirected files p) := by
  cases hk : files.canonical? p with
  | none =>
    have hself : libraryKey files p = p := by simp [libraryKey, hk]
    refine ⟨p, by simp [listedKey, hself, hp], .inl rfl, ?_⟩
    simp [Redirected, hk]
  | some k =>
    have hkey : libraryKey files p = k := by simp [libraryKey, hk]
    by_cases hlisted : L.libraries.contains k = true
    · refine ⟨k, by simp [listedKey, hkey, hlisted], .inr rfl, ?_⟩
      simp [Redirected, hk, hlisted]
    · refine ⟨p, by simp [listedKey, hkey, hlisted, hp], .inl rfl, ?_⟩
      simp [Redirected, hk, hlisted]

theorem contains_of_listedKey {L : Loader} {files : FileTree} {p key : Path}
    (hkey : L.listedKey files p = some key) : L.libraries.contains key = true := by
  unfold listedKey at hkey
  split at hkey
  · next hlisted =>
    rw [← Option.some.inj hkey]
    exact hlisted
  · split at hkey
    · next hlisted =>
      rw [← Option.some.inj hkey]
      exact hlisted
    · simp at hkey

/-! ## Forgetting -/

theorem forget_of_listedKey {L : Loader} {h : Host} {p key : Path}
    (hkey : L.listedKey h.files p = some key) :
    (L.forget h p).1 = true ∧ (L.forget h p).2.1 = L.remove key := by
  obtain ⟨library, hlibrary⟩ := Option.isSome_iff_exists.1 (contains_of_listedKey hkey)
  simp only [forget, hkey, hlibrary, and_self]

theorem forget_of_not_listed {L : Loader} {h : Host} {p : Path}
    (hkey : L.listedKey h.files p = none) :
    (L.forget h p).1 = false ∧ (L.forget h p).2.1 = L := by
  simp only [forget, hkey, and_self]

theorem forgetOf_known {L : Loader} (hc : L.Consistent) {plugin : String} {e : IndexEntry}
    (he : L.index.find? (Name.normalize plugin) = some e) (h : Host) :
    ∃ key, (key = e.library.path ∨ h.files.canonical? e.library.path = some key) ∧
      ((key == e.library.path) = true ↔ ¬ L.Redirected h.files e.library.path) ∧
      (L.forgetOf h plugin).1 = true ∧ (L.forgetOf h plugin).2.1 = L.remove key := by
  obtain ⟨l, hl⟩ := hc.listed _ e he
  have hlisted : L.libraries.contains e.library.path = true := by simp [Table.contains, hl]
  obtain ⟨key, hkey, hwhich, hsame⟩ := listedKey_of_listed hlisted h.files
  have hpath : L.libraryOf plugin = some e.library.path := by simp [libraryOf, he]
  have hforget := forget_of_listedKey hkey
  refine ⟨key, hwhich, hsame, ?_⟩
  simpa only [forgetOf, hpath] using hforget

end PluginHost.Loader
