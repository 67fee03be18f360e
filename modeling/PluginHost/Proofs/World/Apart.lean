import PluginHost.Proofs.Loader.Representation
import PluginHost.Proofs.World.Evolution
import PluginHost.Proofs.World.Loaders
import PluginHost.Proofs.World.Soundness

/-!
# The libraries of different loaders

Every registration makes a library of its own, also when the same file is loaded by another loader. So no
library belongs to two loaders, and what one loader counts for its libraries another does not.

* `Loader.mem_references_loadAll`: a library of a loader after loading is new or was there before.
* `World.mem_references_after`: and so it is after every action.
* `World.ids_ne_of_reachable`: two loaders have no library in common.
-/

namespace PluginHost

set_option autoImplicit false

open PluginHost.Table

namespace Loader

/-! ## New libraries -/

theorem mem_references_registered {L : Loader} {library l : Library} {infos : List PluginInfo}
    (hl : l ∈ (L.registered library infos).references) : l ∈ L.references ∨ l = library := by
  rcases mem_references.1 hl with ⟨e, he, rfl⟩ | ⟨e, he, rfl⟩
  · rcases eq_or_mem_of_mem_put he with ⟨-, hvalue⟩ | hold
    · exact .inr hvalue
    · exact .inl (mem_references.2 (.inl ⟨e, hold, rfl⟩))
  · rcases mem_indexed he with ⟨info, -, rfl⟩ | hold
    · exact .inr rfl
    · exact .inl (mem_references.2 (.inr ⟨e, hold, rfl⟩))

theorem mem_references_remove {L : Loader} {key : Path} {l : Library}
    (hl : l ∈ (L.remove key).references) : l ∈ L.references := by
  rcases mem_references.1 hl with ⟨e, he, rfl⟩ | ⟨e, he, rfl⟩
  · exact mem_references.2 (.inl ⟨e, (List.mem_filter.1 he).1, rfl⟩)
  · exact mem_references.2 (.inr ⟨e, (List.mem_filter.1 he).1, rfl⟩)

theorem mem_references_tryLoad {L : Loader} {h : Host} {p : Path} {l : Library}
    (hl : l ∈ (L.tryLoad h p).2.1.references) : l ∈ L.references ∨ h.fresh ≤ l.id := by
  by_cases hexists : h.files.exists? p = true
  · rw [(L.tryLoad_outcome hexists).2] at hl
    cases hp : (h.locate p).map Host.code with
    | none =>
      rw [hp] at hl
      exact .inl hl
    | some found =>
      rw [hp] at hl
      simp only at hl
      rcases L.outcome_cases _ _ _ _ with ⟨-, heq⟩ | ⟨n, -, -, -, heq⟩
      · rw [heq] at hl
        exact .inl hl
      · rw [heq] at hl
        rcases mem_references_registered hl with hold | rfl
        · exact .inl hold
        · exact .inr (Nat.le_max_left _ _)
  · simp only [tryLoad, hexists, Bool.false_eq_true, if_false] at hl
    exact .inl hl

theorem mem_references_loadAll {L : Loader} {h : Host} {paths : List Path} {l : Library}
    (hl : l ∈ (L.loadAll h paths).2.1.references) : l ∈ L.references ∨ h.fresh ≤ l.id := by
  have hall := loadAll_induction
    (motive := fun L' h' => h.fresh ≤ h'.fresh ∧ ∀ l ∈ L'.references, l ∈ L.references ∨ h.fresh ≤ l.id)
    (L := L) (h := h) paths ⟨Nat.le_refl _, fun _ hl => .inl hl⟩ fun L' h' p ⟨hfresh, hbefore⟩ => ?_
  · exact hall.2 l hl
  · refine ⟨Nat.le_trans hfresh (L'.evolves_load h' p).fresh, fun l hl => ?_⟩
    rw [load_loader] at hl
    rcases mem_references_tryLoad hl with hold | hnew
    · exact hbefore l hold
    · exact .inr (Nat.le_trans hfresh hnew)

/-- The library of an instance that a loader makes is one of the loader. -/
theorem library_mem_references {L : Loader} {h : Host} {plugin : String} {x : Instance}
    (hx : (L.instantiate h plugin).1.held = some x) : x.library ∈ L.references := by
  unfold instantiate at hx
  split at hx
  · next e he =>
    by_cases hp : e.info.factory.product = .nothing
    · simp only [Host.instantiate_of_nothing h e.library hp] at hx
      cases hx
    · simp only [Host.instantiate_fst h e.library hp, Option.some.injEq] at hx
      subst hx
      exact mem_references_of_index he
  · cases hx

end Loader

namespace World

/-! ## Different loaders -/

theorem eq_of_loads {w : World} {a : Action} {name name' : String} {paths paths' : List Path}
    (hl : w.Loads a name paths) (hl' : w.Loads a name' paths') : name = name' := by
  cases a with
  | load | tryLoad | loadConfigured => exact hl.1.symm.trans hl'.1
  | _ => exact hl.elim

/-- After an action a library of a loader was there before, or it is new and the loader loaded it. -/
theorem mem_references_after {w : World} {a : Action} {name : String} {L : Loader} {l : Library}
    (hL : (w.after a).loaders.find? name = some L) (hl : l ∈ L.references) :
    (∃ L₀, w.loaders.find? name = some L₀ ∧ l ∈ L₀.references) ∨
      (w.host.fresh ≤ l.id ∧ ∃ paths, w.Loads a name paths) := by
  cases w.loader_after a name with
  | same h => exact .inl ⟨L, h.symm.trans hL, hl⟩
  | replaced _ h =>
    obtain ⟨config, rfl⟩ := h L hL
    rw [Loader.references_withConfig] at hl
    exact absurd hl (Multiset.notMem_zero l)
  | @loaded L₀ paths hL₀ hloads h =>
    rw [h, Option.some.injEq] at hL
    rw [← hL] at hl
    rcases Loader.mem_references_loadAll hl with hold | hnew
    · exact .inl ⟨L₀, hL₀, hold⟩
    · exact .inr ⟨hnew, paths, hloads⟩
  | @forgot L₀ key hL₀ _ h =>
    rw [h, Option.some.injEq] at hL
    rw [← hL] at hl
    exact .inl ⟨L₀, hL₀, Loader.mem_references_remove hl⟩

theorem id_lt_fresh {w : World} (hw : Reachable w) {name : String} {L : Loader} {l : Library}
    (hL : w.loaders.find? name = some L) (hl : l ∈ L.references) : l.id < w.host.fresh := by
  have hb := (sound_of_reachable (fun _ => False) hw).host.balanced
  obtain ⟨r, hr, -⟩ := hb.records.kept l (Multiset.mem_add.2 (.inl (mem_referencesOf hL hl)))
  exact hb.record_lt_fresh hr

/-- No two loaders of a reachable world have a library in common. -/
theorem ids_ne_of_reachable {w : World} (hw : Reachable w) {name name' : String} (hne : name ≠ name')
    {L L' : Loader} (hL : w.loaders.find? name = some L) (hL' : w.loaders.find? name' = some L')
    {l l' : Library} (hl : l ∈ L.references) (hl' : l' ∈ L'.references) : l.id ≠ l'.id := by
  induction hw generalizing L L' with
  | start files => simp [World.start] at hL
  | @step w a hw ih =>
    -- what is new in a step has a new identity, and only one loader has something new
    rcases mem_references_after hL hl with ⟨L₀, hL₀, hold⟩ | ⟨hnew, paths, hloads⟩
    · rcases mem_references_after hL' hl' with ⟨L₀', hL₀', hold'⟩ | ⟨hnew', -⟩
      · exact ih hL₀ hL₀' hold hold'
      · have hlt := id_lt_fresh hw hL₀ hold
        omega
    · rcases mem_references_after hL' hl' with ⟨L₀', hL₀', hold'⟩ | ⟨-, paths', hloads'⟩
      · have hlt := id_lt_fresh hw hL₀' hold'
        omega
      · exact absurd (eq_of_loads hloads hloads') hne

end World

end PluginHost
