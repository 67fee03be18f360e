import Mathlib.Logic.Relation
import PluginHost.Proofs.Host.Balance

/-!
# What happens to mappings

Whatever a program does in a host, its files stay as they are, and its mappings change in two ways only: a
path is opened, or a hold is given back. So a file is never mapped twice.

* `Host.Moves`, `Host.Evolves`: one thing that happens, and any number of them.
* `Host.Evolves.files`: the files stay.
* `Host.Separate`: no two mappings are of one file.
* `Host.evolves_releaseLibrary`, `Host.evolves_release`, …: every operation is made of such things.
-/

namespace PluginHost.Host

set_option autoImplicit false

open PluginHost.Table

/-! ## What can happen -/

inductive Moves (h : Host) : Host → Prop where
  /-- The rest of the host changes. -/
  | aside {h' : Host} (files : h'.files = h.files) (mappings : h'.mappings = h.mappings)
      (fresh : h.fresh ≤ h'.fresh) : Moves h h'
  | held {p : Path} {id : Nat} {m : Mapping} (hp : h.locate p = some (id, m)) : Moves h (h.hold id m)
  | returned (id : Nat) : Moves h (h.closeMapping id)

def Evolves : Host → Host → Prop := Relation.ReflTransGen Moves

namespace Evolves

variable {h h' h'' : Host}

theorem refl (h : Host) : h.Evolves h := Relation.ReflTransGen.refl

theorem trans (first : h.Evolves h') (second : h'.Evolves h'') : h.Evolves h'' :=
  Relation.ReflTransGen.trans first second

theorem of_moves (hm : h.Moves h') : h.Evolves h' := Relation.ReflTransGen.single hm

theorem aside (files : h'.files = h.files) (mappings : h'.mappings = h.mappings)
    (fresh : h.fresh ≤ h'.fresh) : h.Evolves h' := .of_moves (.aside files mappings fresh)

theorem invariant {P : Host → Prop} (hP : ∀ h h', Moves h h' → P h → P h') (he : h.Evolves h')
    (hstart : P h) : P h' := by
  induction he with
  | refl => exact hstart
  | tail _ hm ih => exact hP _ _ hm ih

theorem foldl {α : Type} {f : Host → α → Host} (hf : ∀ h a, Evolves h (f h a)) (h : Host)
    (as : List α) : h.Evolves (as.foldl f h) := by
  induction as generalizing h with
  | nil => exact refl h
  | cons a as ih => exact (hf h a).trans (ih (f h a))

end Evolves

/-! ## The files -/

@[simp] theorem files_closeMapping (h : Host) (id : Nat) : (h.closeMapping id).files = h.files := by
  unfold closeMapping
  split <;> rfl

theorem Evolves.files {h h' : Host} (he : h.Evolves h') : h'.files = h.files := by
  refine he.invariant (P := fun h' => h'.files = h.files) (fun h₁ h₂ hm hfiles => ?_) rfl
  cases hm with
  | aside files _ _ => exact files.trans hfiles
  | held _ => exact hfiles
  | returned id => rw [files_closeMapping, hfiles]

/-! ## The next identity -/

@[simp] theorem fresh_closeMapping (h : Host) (id : Nat) : (h.closeMapping id).fresh = h.fresh := by
  unfold closeMapping
  split <;> rfl

theorem Moves.fresh_le {h h' : Host} (hm : h.Moves h') : h.fresh ≤ h'.fresh := by
  cases hm with
  | aside _ _ fresh => exact fresh
  | held _ => exact Nat.le_max_left _ _
  | returned id => rw [fresh_closeMapping]

theorem Evolves.fresh {h h' : Host} (he : h.Evolves h') : h.fresh ≤ h'.fresh :=
  he.invariant (P := fun h' => h.fresh ≤ h'.fresh) (fun _ _ hm hle => Nat.le_trans hle hm.fresh_le)
    (Nat.le_refl _)

/-! ## One mapping for a file -/

/-- Mappings have their own keys and their own files. -/
structure Separate (h : Host) : Prop where
  distinct : h.mappings.Distinct
  below : h.mappings.Below h.fresh
  apart : ∀ id m id' m', h.mappings.find? id = some m → h.mappings.find? id' = some m' →
    m.file = m'.file → id = id'

theorem separate_start (files : FileTree) : (start files).Separate where
  distinct := distinct_nil
  below := Below.nil _
  apart := by intro id m id' m' hm; simp [start] at hm

namespace Separate

variable {h h' : Host} {p : Path} {id id' file : Nat} {m m' : Mapping}

theorem find?_of_knownAs (hs : h.Separate) {text : String} (hk : h.knownAs text = some (id, m)) :
    h.mappings.find? id = some m := find?_of_mem hs.distinct (List.mem_of_find?_eq_some hk)

theorem find?_of_mappedFrom (hs : h.Separate) (hf : h.mappedFrom file = some (id, m)) :
    h.mappings.find? id = some m ∧ m.file = file :=
  ⟨find?_of_mem hs.distinct (List.mem_of_find?_eq_some hf), by simpa using List.find?_some hf⟩

theorem mappedFrom_eq (hs : h.Separate) (hm : h.mappings.find? id = some m) :
    h.mappedFrom m.file = some (id, m) := by
  cases hf : h.mappedFrom m.file with
  | none =>
    obtain ⟨e, he, hem⟩ := List.mem_map.1 (mem_values_of_find? hm)
    have hno := List.find?_eq_none.1 hf e he
    simp [hem] at hno
  | some found =>
    obtain ⟨hfound, hfile⟩ := hs.find?_of_mappedFrom hf
    have hid := hs.apart _ _ _ _ hfound hm hfile
    rw [hid, hm, Option.some.injEq] at hfound
    rw [hfound, ← hid]

/-- The mapping that opening a path leads to is one that is there, or a new one for a file that has none. -/
theorem of_locate (hs : h.Separate) (hp : h.locate p = some (id, m)) :
    (∃ m₀, h.mappings.find? id = some m₀ ∧ m.file = m₀.file) ∨
      (id = h.fresh ∧ ∀ id' m', h.mappings.find? id' = some m' → m'.file ≠ m.file) := by
  rcases locate_cases hp with hknown | ⟨-, file, image, -, ⟨m₀, hmapped, rfl⟩ | ⟨hmapped, rfl, rfl⟩⟩
  · exact .inl ⟨m, hs.find?_of_knownAs hknown, rfl⟩
  · exact .inl ⟨m₀, (hs.find?_of_mappedFrom hmapped).1, rfl⟩
  · refine .inr ⟨rfl, fun id' m' hm' hfile => ?_⟩
    have hfound := hs.mappedFrom_eq hm'
    rw [hfile, hmapped] at hfound
    simp at hfound

theorem of_files (hs : h.Separate) (distinct : h'.mappings.Distinct)
    (below : h'.mappings.Below h'.fresh)
    (files : ∀ id m, h'.mappings.find? id = some m →
      ∃ m₀, h.mappings.find? id = some m₀ ∧ m.file = m₀.file) : h'.Separate where
  distinct := distinct
  below := below
  apart := by
    intro id m id' m' hm hm' hfile
    obtain ⟨m₀, hm₀, heq⟩ := files id m hm
    obtain ⟨m₁, hm₁, heq'⟩ := files id' m' hm'
    exact hs.apart id m₀ id' m₁ hm₀ hm₁ (by rw [← heq, ← heq', hfile])

theorem hold (hs : h.Separate) (hp : h.locate p = some (id, m)) : (h.hold id m).Separate := by
  have hdistinct : (h.hold id m).mappings.Distinct := hs.distinct.put id _
  have hbelow : (h.hold id m).mappings.Below (h.hold id m).fresh :=
    (hs.below.mono (Nat.le_max_left _ _)).put (Nat.le_max_right _ _) _
  have hfind : ∀ j, (h.hold id m).mappings.find? j =
      if id = j then some { m with holds := m.holds + 1 } else h.mappings.find? j := fun j => by
    simp [Host.hold, log, find?_put]
  rcases hs.of_locate hp with ⟨m₀, hm₀, hfile⟩ | ⟨-, hnone⟩
  · -- one more string or one more hold, and the file stays
    refine hs.of_files hdistinct hbelow fun j v hv => ?_
    rw [hfind] at hv
    split at hv
    · next heq =>
      rw [← heq, ← Option.some.inj hv]
      exact ⟨m₀, hm₀, hfile⟩
    · exact ⟨v, hv, rfl⟩
  · refine ⟨hdistinct, hbelow, fun i v j v' hv hv' hfile => ?_⟩
    rw [hfind] at hv hv'
    split at hv <;> split at hv'
    · next hi hj => exact hi.symm.trans hj
    · rw [← Option.some.inj hv] at hfile
      exact absurd hfile.symm (hnone j v' hv')
    · rw [← Option.some.inj hv'] at hfile
      exact absurd hfile (hnone i v hv)
    · exact hs.apart i v j v' hv hv' hfile

theorem closeMapping (hs : h.Separate) (id : Nat) : (h.closeMapping id).Separate := by
  unfold Host.closeMapping
  split
  · exact hs
  · next m hm =>
    split
    · refine hs.of_files (hs.distinct.erase id) (hs.below.erase id) fun j v hv => ?_
      simp only [log, find?_erase, beq_iff_eq] at hv
      split at hv
      · simp at hv
      · exact ⟨v, hv, rfl⟩
    · refine hs.of_files (hs.distinct.put id _) (hs.below.put (hs.below.lt hm) _) fun j v hv => ?_
      simp only [log, find?_put, beq_iff_eq] at hv
      split at hv
      · next heq =>
        rw [← heq, ← Option.some.inj hv]
        exact ⟨m, hm, rfl⟩
      · exact ⟨v, hv, rfl⟩

theorem moves (hs : h.Separate) (hm : h.Moves h') : h'.Separate := by
  cases hm with
  | aside _ mappings fresh =>
    refine hs.of_files ?_ ?_ fun id m hm => ⟨m, mappings ▸ hm, rfl⟩
    · rw [mappings]; exact hs.distinct
    · rw [mappings]; exact hs.below.mono fresh
  | held hp => exact hs.hold hp
  | returned id => exact hs.closeMapping id

end Separate

/-! ## Operations -/

variable (h : Host) (l : Library) (x : Instance)

theorem evolves_note (n : Notice) : h.Evolves (h.note n) := .aside rfl rfl (Nat.le_refl _)

theorem evolves_notes (ns : List Notice) : h.Evolves (ns.foldl note h) := .foldl evolves_note h ns

theorem evolves_call (o : Origin) (c : Call) : h.Evolves (h.call o c) :=
  .aside rfl rfl (Nat.le_refl _)

theorem evolves_openLibrary {h opened : Host} {p : Path} {found : Nat × Image}
    (hopen : h.openLibrary p = some (found, opened)) : h.Evolves opened := by
  obtain ⟨⟨id, m⟩, hlocate, heq⟩ := Option.map_eq_some_iff.1 hopen
  rw [← (Prod.mk.inj heq).2]
  exact .of_moves (.held hlocate)

theorem evolves_closeMapping (id : Nat) : h.Evolves (h.closeMapping id) := .of_moves (.returned id)

theorem evolves_retainLibrary : h.Evolves (h.retainLibrary l) := by
  unfold retainLibrary
  split
  · exact .refl h
  · exact .aside rfl rfl (Nat.le_refl _)

theorem evolves_releaseLibrary : h.Evolves (h.releaseLibrary l) := by
  unfold releaseLibrary
  split
  · exact .refl h
  · split
    · refine Evolves.trans ?_ (evolves_closeMapping _ _)
      exact .aside rfl rfl (Nat.le_refl _)
    · exact .aside rfl rfl (Nat.le_refl _)

theorem evolves_newLibrary (path : Path) (plugins : List String) (o : Origin) :
    h.Evolves (h.newLibrary path plugins o).2 := .aside rfl rfl (Nat.le_succ _)

theorem evolves_countLive (change : Nat → Nat) : h.Evolves (h.countLive l change) := by
  unfold countLive
  split
  · exact .refl h
  · exact .aside rfl rfl (Nat.le_refl _)

theorem evolves_instantiate (info : PluginInfo) : h.Evolves (h.instantiate info l).2 := by
  unfold instantiate
  split
  · exact (evolves_call h _ _).trans (evolves_note _ _)
  · refine Evolves.trans ?_ (evolves_note _ _)
    refine Evolves.trans ?_ (evolves_countLive _ l _)
    refine Evolves.trans ?_ (evolves_retainLibrary _ l)
    exact .aside rfl rfl (Nat.le_succ _)

theorem evolves_retain : h.Evolves (h.retain x) := by
  unfold retain
  split
  · exact .refl h
  · exact .aside rfl rfl (Nat.le_refl _)

theorem evolves_destroy : h.Evolves (h.destroy x) := by
  unfold destroy
  refine Evolves.trans ?_ (evolves_releaseLibrary _ x.library)
  refine Evolves.trans ?_ (evolves_note _ _)
  refine Evolves.trans ?_ (evolves_countLive _ x.library _)
  split
  · exact .aside rfl rfl (Nat.le_refl _)
  · exact .aside rfl rfl (Nat.le_refl _)

theorem evolves_release : h.Evolves (h.release x) := by
  unfold release
  split
  · exact .refl h
  · split
    · exact evolves_destroy h x
    · exact .aside rfl rfl (Nat.le_refl _)

theorem evolves_resolve (interface : String) : h.Evolves (h.resolve x interface).2 := by
  unfold resolve
  split
  · exact evolves_call h _ _
  · exact .refl h

theorem evolves_use (p : Pointer) (arg : Argument) : h.Evolves (h.use x p arg).2 := by
  unfold use
  split
  · exact .aside rfl rfl (Nat.le_refl _)
  · exact .refl h

end PluginHost.Host
