import PluginHost.Proofs.Host.Faithful
import PluginHost.Proofs.Loader.Failure
import PluginHost.Proofs.Loader.Frame
import PluginHost.Proofs.Loader.Outline

/-!
# Loaders that agree

Two loaders with one outline, in hosts with the same files, cannot be told apart: they answer loads and
questions alike and agree again afterwards. A load that fails leaves a loader in agreement with what it was, so
the loads that fail at the start make no difference later.

* `Loader.Agrees`: the agreement.
* `Loader.Agrees.tryLoad`, `Loader.Agrees.load`: it is kept.
* `Loader.loadable`, `Loader.Agrees.loadAll`: a list of libraries without those that fail.
* `Loader.Agrees.dump`, `Loader.Agrees.implementing`, `Loader.Agrees.instantiate`: what is answered.
-/

namespace PluginHost

set_option autoImplicit false

open PluginHost.Table

theorem Instance.isSome_find?_congr (x x' : Instance) (h : x'.info = x.info) (interface : String) :
    (x'.find? interface).isSome = (x.find? interface).isSome := by
  simp only [find?, h]
  cases x.info.caster interface with
  | none => rfl
  | some c =>
    cases c with
    | identity => rfl
    | cast i => simp only [Option.bind_some, follow, published, h, Option.isSome_map]

namespace Loader

/-- The loaders have one outline, and their hosts see the same files, which have not changed since anything
was mapped. -/
structure Agrees (L L' : Loader) (h h' : Host) : Prop where
  outline : L'.outline = L.outline
  files : h'.files = h.files
  coherent : h.files.Coherent
  faithful : h.Faithful
  other : h'.Faithful

/-- The libraries of a list that load when it is their turn. -/
def loadable (L : Loader) (h : Host) : List Path → List Path
  | [] => []
  | p :: rest =>
    let others := loadable (L.load h p).2.1 (L.load h p).2.2 rest
    match (L.tryLoad h p).1 with
    | .ok _ => p :: others
    | .error _ => others

theorem loadAll_cons (L : Loader) (h : Host) (p : Path) (rest : List Path) :
    (L.loadAll h (p :: rest)).2 = ((L.load h p).2.1.loadAll (L.load h p).2.2 rest).2 := by
  have hloop : ∀ (paths : List Path) (names names' : List String) (s : Loader × Host),
      (paths.foldl (fun state p =>
        let step := state.2.1.load state.2.2 p
        (state.1 ++ step.1, step.2)) (names, s)).2 =
      (paths.foldl (fun state p =>
        let step := state.2.1.load state.2.2 p
        (state.1 ++ step.1, step.2)) (names', s)).2 := by
    intro paths
    induction paths with
    | nil => exact fun _ _ _ => rfl
    | cons q paths ih => exact fun _ _ s => ih _ _ _
  exact hloop rest _ _ _

namespace Agrees

variable {L L' : Loader} {h h' : Host}

theorem imageAt_eq (ha : Agrees L L' h h') (p : Path) : h'.imageAt p = h.imageAt p := by
  have hcoherent : h'.files.Coherent := ha.files ▸ ha.coherent
  rw [ha.other.imageAt_eq hcoherent, ha.faithful.imageAt_eq ha.coherent, ha.files]

theorem evolves (ha : Agrees L L' h h') {M M' : Loader} {g g' : Host} (houtline : M'.outline = M.outline)
    (he : h.Evolves g) (he' : h'.Evolves g') : Agrees M M' g g' where
  outline := houtline
  files := by rw [he'.files, he.files, ha.files]
  coherent := he.files ▸ ha.coherent
  faithful := ha.faithful.evolves ha.coherent he
  other := ha.other.evolves (ha.files ▸ ha.coherent) he'

/-! ## Loads -/

theorem tryLoad (ha : Agrees L L' h h') (p : Path) : (L'.tryLoad h' p).1 = (L.tryLoad h p).1 ∧
    Agrees (L.tryLoad h p).2.1 (L'.tryLoad h' p).2.1 (L.tryLoad h p).2.2 (L'.tryLoad h' p).2.2 := by
  obtain ⟨hanswer, houtline⟩ := tryLoad_congr ha.outline ha.files (ha.imageAt_eq p)
  exact ⟨hanswer, ha.evolves houtline (L.evolves_tryLoad h p) (L'.evolves_tryLoad h' p)⟩

theorem load (ha : Agrees L L' h h') (p : Path) :
    Agrees (L.load h p).2.1 (L'.load h' p).2.1 (L.load h p).2.2 (L'.load h' p).2.2 := by
  have houtline := (ha.tryLoad p).2.outline
  rw [← L.load_loader, ← L'.load_loader] at houtline
  exact ha.evolves houtline (L.evolves_load h p) (L'.evolves_load h' p)

/-- A load that fails changes nothing that counts. -/
theorem load_of_error (ha : Agrees L L' h h') {p : Path} {e : LoadError} (herror : (L.tryLoad h p).1 = .error e) :
    Agrees (L.load h p).2.1 L' (L.load h p).2.2 h' := by
  have hstays : (L.load h p).2.1 = L := by
    rw [L.load_loader]
    exact loader_of_barren fun names hok => by simp [herror] at hok
  rw [hstays]
  exact ha.evolves ha.outline (L.evolves_load h p) (.refl h')

/-- It makes no difference whether the libraries that fail to load are listed. -/
theorem loadAll (ha : Agrees L L' h h') (paths : List Path) :
    Agrees (L.loadAll h paths).2.1 (L'.loadAll h' (L.loadable h paths)).2.1 (L.loadAll h paths).2.2
      (L'.loadAll h' (L.loadable h paths)).2.2 := by
  induction paths generalizing L L' h h' with
  | nil => exact ha
  | cons p rest ih =>
    rw [loadable, loadAll_cons]
    cases hanswer : (L.tryLoad h p).1 with
    | ok names =>
      simp only [loadAll_cons]
      exact ih (ha.load p)
    | error e => exact ih (ha.load_of_error hanswer)

/-! ## Questions -/

theorem infos (ha : Agrees L L' h h') : L'.infos = L.infos := by
  have hseen : ∀ M : Loader, M.infos = M.outline.index.values.map Prod.fst := fun M => by
    simp only [Loader.infos, Loader.outline, mapValues, values, List.map_map]
    rfl
  rw [hseen, hseen, ha.outline]

theorem dump (ha : Agrees L L' h h') : L'.dump = L.dump := by
  simp only [Loader.dump, interfacesImplemented, orderedInfos, ha.infos]

theorem implementing (ha : Agrees L L' h h') (interface : String) :
    L'.implementing interface = L.implementing interface := by
  rw [Loader.implementing, Loader.implementing, ha.infos]

/-- Instances of one plugin provide the same. -/
theorem instantiate (ha : Agrees L L' h h') (plugin : String) :
    (L'.instantiate h' plugin).1.info = (L.instantiate h plugin).1.info ∧
      ∀ interface, ((L'.instantiate h' plugin).1.find? interface).isSome =
        ((L.instantiate h plugin).1.find? interface).isSome := by
  have hseen : ∀ M : Loader, M.outline.index.find? (Name.normalize plugin) =
      (M.index.find? (Name.normalize plugin)).map fun e => (e.info, e.library.path) := fun M => by
    simp only [Loader.outline, find?_mapValues]
  have hsame := hseen L'
  rw [ha.outline, hseen] at hsame
  unfold Loader.instantiate
  cases he : L.index.find? (Name.normalize plugin) with
  | none =>
    rw [he, Option.map_none, eq_comm, Option.map_eq_none_iff] at hsame
    rw [hsame]
    exact ⟨rfl, fun _ => rfl⟩
  | some e =>
    rw [he, Option.map_some, eq_comm, Option.map_eq_some_iff] at hsame
    obtain ⟨e', he', hinfo⟩ := hsame
    have hinfo : e'.info = e.info := (Prod.mk.inj hinfo).1
    rw [he']
    by_cases hp : e.info.factory.product = .nothing
    · simp only [hinfo, Host.instantiate_of_nothing _ _ hp, implies_true, and_self]
    · simp only [hinfo, Host.instantiate_fst _ _ hp]
      exact ⟨rfl, Instance.isSome_find?_congr ⟨h.fresh, e.info, e.library⟩
        ⟨h'.fresh, e.info, e'.library⟩ rfl⟩

end Agrees

end Loader

end PluginHost
