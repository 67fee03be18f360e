import PluginHost.Proofs.Loader.Registration

/-!
# Outlines of loaders

What a loader answers follows from the names and the paths that it knows. Which libraries stand behind them,
by what identities and in what mappings, makes no difference. Loaders with one outline answer loads alike and
have one outline again.

* `Outline`, `Loader.outline`: a loader without identities.
* `Outline.Admits`: whether a library may bring a plugin under a name.
* `Loader.tryLoad_congr`: loads of loaders with one outline.
* `Outline.registered_registered`, `Loader.admitted_registered`: the same registration once more.
-/

namespace PluginHost

set_option autoImplicit false

open PluginHost.Table

/-- What a loader knows: the plugins by their names, with the path of the library, and the libraries by
their keys, with the names they were registered with. -/
structure Outline where
  policy : DuplicatePolicy
  index : Table String (PluginInfo × Path)
  libraries : Table Path (Path × List String)

namespace Outline

/-- A name is free, it belongs to the key, or names may be taken over. -/
def Admits (O : Outline) (key : Path) (n : String) : Prop :=
  O.index.find? n = none ∨ (∃ e ∈ O.index.find? n, (e.2 == key) = true) ∨ O.policy = .overwrite

instance (O : Outline) (key : Path) (n : String) : Decidable (O.Admits key n) :=
  inferInstanceAs (Decidable (_ ∨ _ ∨ _))

def registered (O : Outline) (path : Path) (names : List String) (infos : List PluginInfo) : Outline :=
  { O with
    index := O.index.putEach (infos.map fun info => (info.name, (info, path)))
    libraries := O.libraries.put path (path, names) }

theorem registered_registered {O : Outline} (hd : O.index.Distinct) (path : Path) (names : List String)
    (infos : List PluginInfo) :
    (O.registered path names infos).registered path names infos = O.registered path names infos := by
  simp only [registered, putEach_putEach hd, put_put]

end Outline

namespace Loader

variable {L L' : Loader}

def outline (L : Loader) : Outline where
  policy := L.config.duplicatePolicy
  index := L.index.mapValues fun e => (e.info, e.library.path)
  libraries := L.libraries.mapValues fun l => (l.path, l.plugins)

theorem outline_registered (L : Loader) (l : Library) (infos : List PluginInfo) :
    (L.registered l infos).outline = L.outline.registered l.path l.plugins infos := by
  simp only [outline, registered, Outline.registered, indexed_eq_putEach, mapValues_putEach, mapValues_put,
    List.map_map]
  rfl

/-! ## Loaders with one outline -/

theorem admits_iff {key : Path} {n : String} : L.Admits key n ↔ L.outline.Admits key n := by
  simp only [Admits, Outline.Admits, outline, find?_mapValues]
  cases L.index.find? n <;> simp

theorem admitted_congr (h : L'.outline = L.outline) (key : Path) (infos : List PluginInfo) :
    L'.admitted key infos = L.admitted key infos := by
  refine List.filter_congr fun info _ => ?_
  simp only [admits_iff, h]

theorem outcome_congr (h : L'.outline = L.outline) (id id' : Nat) (key : Path) (o o' : Origin)
    (exports : Exports) : (L'.outcome id' key o' exports).1 = (L.outcome id key o exports).1 ∧
      (L'.outcome id' key o' exports).2.outline = (L.outcome id key o exports).2.outline := by
  unfold outcome
  cases (negotiate exports).2 with
  | error e => exact ⟨rfl, h⟩
  | ok n =>
    simp only [accepted_eq, admitted_congr h]
    split
    · exact ⟨rfl, h⟩
    · refine ⟨rfl, ?_⟩
      rw [outline_registered, outline_registered, h]
      rfl

/-- Loaders with one outline answer alike where paths lead to the same images, and have one outline again. -/
theorem tryLoad_congr (houtline : L'.outline = L.outline) {h h' : Host} {p : Path}
    (hfiles : h'.files = h.files) (himage : h'.imageAt p = h.imageAt p) :
    (L'.tryLoad h' p).1 = (L.tryLoad h p).1 ∧
      (L'.tryLoad h' p).2.1.outline = (L.tryLoad h p).2.1.outline := by
  by_cases hexists : h.files.exists? p = true
  · have hexists' : h'.files.exists? p = true := by rw [hfiles, hexists]
    obtain ⟨hanswer, hloader⟩ := L.tryLoad_outcome hexists
    obtain ⟨hanswer', hloader'⟩ := L'.tryLoad_outcome hexists'
    rw [hanswer, hanswer', hloader, hloader', hfiles]
    have hcode : ∀ g : Host, g.imageAt p = ((g.locate p).map Host.code).map Prod.snd := fun g => by
      rw [Option.map_map]
      rfl
    rw [hcode, hcode] at himage
    cases hp : (h.locate p).map Host.code with
    | none =>
      rw [hp, Option.map_none, Option.map_eq_none_iff] at himage
      rw [himage]
      exact ⟨rfl, houtline⟩
    | some code =>
      rw [hp, Option.map_some, Option.map_eq_some_iff] at himage
      obtain ⟨⟨id, image⟩, hp', rfl⟩ := himage
      rw [hp']
      obtain ⟨hfirst, hsecond⟩ := outcome_congr houtline (max h.fresh (code.1 + 1))
        (max h'.fresh (id + 1)) (libraryKey h.files p) ⟨code.1, code.2.id, code.2.reports⟩
        ⟨id, code.2.id, code.2.reports⟩ code.2.exports
      exact ⟨congrArg (Except.mapError (LoadError.abi p)) hfirst, hsecond⟩
  · have hexists' : ¬ h'.files.exists? p = true := by rw [hfiles]; exact hexists
    simp [tryLoad, hexists, hexists', houtline]

/-! ## The same registration once more -/

/-- The names that were let in belong to the key, and the others are judged as before. -/
theorem admitted_registered (L : Loader) {l : Library} {key : Path} (hpath : (l.path == key) = true)
    (infos : List PluginInfo) :
    (L.registered l (L.admitted key infos)).admitted key infos = L.admitted key infos := by
  refine List.filter_congr fun info hinfo => ?_
  simp only [decide_eq_decide]
  by_cases hadmits : L.Admits key info.name
  · refine iff_of_true ?_ hadmits
    have hmem : info ∈ L.admitted key infos := List.mem_filter.2 ⟨hinfo, by simpa using hadmits⟩
    obtain ⟨e, he, hlibrary⟩ : ∃ e, (indexed l L.index (L.admitted key infos)).find? info.name = some e ∧
        e.library = l := exists_find?_indexed ⟨info, hmem, rfl⟩ L.index
    exact .inr (.inl ⟨e, he, by rw [hlibrary]; exact hpath⟩)
  · have hother : ∀ other ∈ L.admitted key infos, other.name ≠ info.name := by
      intro other hmem hname
      have hother := (List.mem_filter.1 hmem).2
      rw [hname, decide_eq_true_iff] at hother
      exact hadmits hother
    simp only [Admits, registered, find?_indexed_of_ne hother]

end Loader

end PluginHost
