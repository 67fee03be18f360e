import PluginHost.Loader.Loading
import PluginHost.Proofs.Table.Bag

/-!
# What loading makes of a loader

A load depends on the host only through the code that the path leads to, the key of the path and the next
identity. What it answers and what it makes of the loader is a function of these and of what the image
exports.

* `Loader.registered`: the loader after a registration.
* `Loader.outcome`: what loading some exports answers and makes of a loader.
* `Loader.tryLoad_outcome`: a load does what its key and its code say.
* `Loader.tryLoad_loader`: it changes nothing or registers what was read.
-/

namespace PluginHost

set_option autoImplicit false

theorem eq_ok_of_mapError {α ε δ : Type} {r : Except ε α} {f : ε → δ} {a : α}
    (hok : r.mapError f = .ok a) : r = .ok a := by
  cases r with
  | error e => cases hok
  | ok found => exact congrArg Except.ok (Except.ok.inj hok)

def Host.code (found : Nat × Mapping) : Nat × Image := (found.1, found.2.image)

namespace Loader

/-! ## Registration -/

def indexed (library : Library) (index : Table String IndexEntry) (infos : List PluginInfo) :
    Table String IndexEntry :=
  infos.foldl (fun t info => t.put info.name ⟨info, library⟩) index

/-- The loader after plugins of a library are registered. -/
def registered (L : Loader) (library : Library) (infos : List PluginInfo) : Loader :=
  { L with
    libraries := L.libraries.put library.path library
    index := indexed library L.index infos }

def record (id : Nat) (key : Path) (o : Origin) (infos : List PluginInfo) : Library :=
  ⟨id, key, Ordered.ofList (infos.map PluginInfo.name), o⟩

theorem mem_plugins_record {id : Nat} {key : Path} {o : Origin} {infos : List PluginInfo} {n : String} :
    n ∈ (record id key o infos).plugins ↔ ∃ info ∈ infos, info.name = n := by
  simp [record]

theorem plugins_record_ne_nil {id : Nat} {key : Path} {o : Origin} {infos : List PluginInfo}
    (hinfos : infos ≠ []) : (record id key o infos).plugins ≠ [] := by
  intro hnone
  obtain ⟨info, hinfo⟩ := List.exists_mem_of_ne_nil infos hinfos
  have hname : info.name ∈ (record id key o infos).plugins := mem_plugins_record.2 ⟨info, hinfo, rfl⟩
  simp [hnone] at hname

theorem enterAll_loader (library : Library) (L : Loader) (h : Host) (infos : List PluginInfo) :
    (enterAll library L h infos).1 = { L with index := indexed library L.index infos } := by
  induction infos generalizing L h with
  | nil => rfl
  | cons info infos ih => exact ih _ _

/-! ## Outcomes -/

/-- What loading some exports under a key answers and makes of a loader, when `id` is the next identity. -/
def outcome (L : Loader) (id : Nat) (key : Path) (o : Origin) (exports : Exports) :
    Except AbiError (List String) × Loader :=
  match (negotiate exports).2 with
  | .error e => (.error e, L)
  | .ok n =>
    let chosen := L.accepted key n.infos
    if chosen.isEmpty then (.ok [], L)
    else (.ok (record id key o chosen).plugins, L.registered (record id key o chosen) chosen)

/-- Nothing is named and the loader stays as it is, or the accepted plugins are named and registered. -/
theorem outcome_cases (L : Loader) (id : Nat) (key : Path) (o : Origin) (exports : Exports) :
    ((∀ names, (L.outcome id key o exports).1 = .ok names → names = []) ∧
        (L.outcome id key o exports).2 = L) ∨
      ∃ n, (negotiate exports).2 = .ok n ∧
        (L.outcome id key o exports).1 = .ok (record id key o (L.accepted key n.infos)).plugins ∧
        (record id key o (L.accepted key n.infos)).plugins ≠ [] ∧
        (L.outcome id key o exports).2 =
          L.registered (record id key o (L.accepted key n.infos)) (L.accepted key n.infos) := by
  unfold outcome
  cases (negotiate exports).2 with
  | error e => exact .inl ⟨fun names hnames => by simp at hnames, rfl⟩
  | ok n =>
    simp only
    split
    · exact .inl ⟨fun names hnames => (Except.ok.inj hnames).symm, rfl⟩
    · next hchosen =>
      exact .inr ⟨n, rfl, rfl, plugins_record_ne_nil (by simpa using hchosen), rfl⟩

/-! ## Loading -/

theorem fresh_notes (h : Host) (ns : List Notice) : (ns.foldl Host.note h).fresh = h.fresh := by
  induction ns generalizing h with
  | nil => rfl
  | cons n ns ih => exact ih (h.note n)

theorem fresh_probes (o : Origin) (h : Host) (ps : List Probe) :
    (ps.foldl (probe o) h).fresh = h.fresh := by
  induction ps generalizing h with
  | nil => rfl
  | cons p ps ih =>
    rw [List.foldl_cons, ih]
    cases p <;> rfl

theorem fresh_warnOutdated (L : Loader) (h : Host) (p : Path) (n : Negotiated) :
    (L.warnOutdated h p n).fresh = h.fresh := by
  unfold warnOutdated
  split <;> rfl

theorem receive_outcome (L : Loader) (h : Host) (p : Path) (o : Origin) (exports : Exports) :
    let done := L.outcome h.fresh (libraryKey h.files p) o exports
    (L.receive h p o exports).1 = done.1.mapError (.abi p) ∧
      (L.receive h p o exports).2.1 = done.2 := by
  simp only [receive, outcome]
  cases (negotiate exports).2 with
  | error e => exact ⟨rfl, rfl⟩
  | ok n =>
    simp only [register]
    split
    · exact ⟨rfl, rfl⟩
    · simp only [enlist, enterAll_loader, Host.newLibrary, fresh_notes, fresh_warnOutdated,
        fresh_probes]
      exact ⟨rfl, rfl⟩

/-- When the exports of a library are read, the loader stays as it is or the accepted plugins are
registered. -/
theorem receive_loader (L : Loader) (h : Host) (p : Path) (o : Origin) (exports : Exports) :
    (L.receive h p o exports).2.1 = L ∨
      ∃ n id, (negotiate exports).2 = .ok n ∧ (L.receive h p o exports).2.1 =
        L.registered (record id (libraryKey h.files p) o (L.accepted (libraryKey h.files p) n.infos))
          (L.accepted (libraryKey h.files p) n.infos) := by
  rw [(L.receive_outcome h p o exports).2]
  rcases L.outcome_cases h.fresh (libraryKey h.files p) o exports with ⟨-, heq⟩ | ⟨n, hn, -, -, heq⟩
  · exact .inl heq
  · exact .inr ⟨n, h.fresh, hn, heq⟩

theorem tryLoad_outcome (L : Loader) {h : Host} {p : Path} (hexists : h.files.exists? p = true) :
    (L.tryLoad h p).1 =
        (match (h.locate p).map Host.code with
          | none => .error (.cannotOpen p)
          | some (id, image) =>
            (L.outcome (max h.fresh (id + 1)) (libraryKey h.files p) ⟨id, image.id, image.reports⟩
              image.exports).1.mapError (.abi p)) ∧
      (L.tryLoad h p).2.1 =
        (match (h.locate p).map Host.code with
          | none => L
          | some (id, image) =>
            (L.outcome (max h.fresh (id + 1)) (libraryKey h.files p) ⟨id, image.id, image.reports⟩
              image.exports).2) := by
  have hlocate : (h.note (.opening p)).locate p = h.locate p := rfl
  simp only [tryLoad, hexists, if_true, Host.openLibrary, hlocate]
  cases h.locate p with
  | none => exact ⟨rfl, rfl⟩
  | some found => exact receive_outcome _ _ _ _ _

/-- A load names nothing and leaves the loader as it is, or it registers the accepted ones of some plugins
under the key of the path and answers their names. -/
theorem tryLoad_loader (L : Loader) (h : Host) (p : Path) :
    ((∀ names, (L.tryLoad h p).1 = .ok names → names = []) ∧ (L.tryLoad h p).2.1 = L) ∨
      ∃ infos library, (∃ id o, library =
          record id (libraryKey h.files p) o (L.accepted (libraryKey h.files p) infos)) ∧
        (L.tryLoad h p).1 = .ok library.plugins ∧ library.plugins ≠ [] ∧
        (L.tryLoad h p).2.1 =
          L.registered library (L.accepted (libraryKey h.files p) infos) := by
  by_cases hexists : h.files.exists? p = true
  · obtain ⟨hanswer, hloader⟩ := L.tryLoad_outcome hexists
    rw [hanswer, hloader]
    cases (h.locate p).map Host.code with
    | none => exact .inl ⟨fun names hnames => by simp at hnames, rfl⟩
    | some found =>
      simp only
      rcases L.outcome_cases _ _ _ _ with ⟨hnames, heq⟩ | ⟨n, -, hnames, hsome, heq⟩
      · exact .inl ⟨fun names hok => hnames names (eq_ok_of_mapError hok), heq⟩
      · refine .inr ⟨n.infos, _, ⟨_, _, rfl⟩, ?_, hsome, heq⟩
        rw [hnames]
        rfl
  · exact .inl ⟨fun names hnames => by simp [tryLoad, hexists] at hnames, by simp [tryLoad, hexists]⟩

theorem load_loader (L : Loader) (h : Host) (p : Path) :
    (L.load h p).2.1 = (L.tryLoad h p).2.1 := by
  unfold load
  split
  · next heq => rw [heq]
  · next heq => rw [heq]

end Loader

end PluginHost
