import PluginHost.Proofs.Host.Evolution

/-!
# The strings of mappings

A mapping keeps the strings that it is known under for as long as it is in memory, and no string belongs to
two mappings. So a path that was opened leads to the same mapping again, whatever else happened, until that
mapping is gone.

* `Host.Unambiguous`: no string leads to two mappings.
* `Host.Evolves.kept`: a mapping keeps its image and its strings.
* `Host.Unambiguous.locate_again`: opening a path again.
-/

namespace PluginHost.Host

set_option autoImplicit false

open PluginHost.Table

/-- No two mappings are of one file, and none are known under one string. -/
structure Unambiguous (h : Host) : Prop where
  separate : h.Separate
  apart : ∀ text id m id' m', h.mappings.find? id = some m → h.mappings.find? id' = some m' →
    text ∈ m.names → text ∈ m'.names → id = id'

theorem unambiguous_start (files : FileTree) : (start files).Unambiguous where
  separate := separate_start files
  apart := by intro text id m id' m' hm; simp [start] at hm

variable {h h' : Host} {p : Path} {id : Nat} {m v : Mapping} {text : String}

theorem not_mem_names_of_knownAs (hunknown : h.knownAs text = none) (hm : h.mappings.find? id = some m) :
    text ∉ m.names := by
  obtain ⟨e, he, rfl⟩ := List.mem_map.1 (mem_values_of_find? hm)
  simpa using List.find?_eq_none.1 hunknown e he

/-- The mapping that a path leads to is known under the path then. -/
theorem text_mem_of_locate (hp : h.locate p = some (id, m)) : p.text ∈ m.names := by
  rcases locate_cases hp with hknown | ⟨-, file, image, -, ⟨m₀, -, rfl⟩ | ⟨-, -, rfl⟩⟩
  · simpa using List.find?_some hknown
  · simp
  · simp

namespace Unambiguous

/-- A string of the mapping that a path leads to is its own already, or it is the path and new. -/
theorem names_of_locate (hu : h.Unambiguous) (hp : h.locate p = some (id, m)) (htext : text ∈ m.names) :
    (∃ m₀, h.mappings.find? id = some m₀ ∧ text ∈ m₀.names) ∨
      ∀ id' m', h.mappings.find? id' = some m' → text ∉ m'.names := by
  rcases locate_cases hp with hknown | ⟨hunknown, file, image, -, ⟨m₀, hmapped, rfl⟩ | ⟨-, -, rfl⟩⟩
  · exact .inl ⟨m, hu.separate.find?_of_knownAs hknown, htext⟩
  · rcases List.mem_append.1 htext with hold | hnew
    · exact .inl ⟨m₀, (hu.separate.find?_of_mappedFrom hmapped).1, hold⟩
    · rw [List.mem_singleton.1 hnew]
      exact .inr fun _ _ hm' => not_mem_names_of_knownAs hunknown hm'
  · rw [List.mem_singleton.1 htext]
    exact .inr fun _ _ hm' => not_mem_names_of_knownAs hunknown hm'

theorem hold (hu : h.Unambiguous) (hp : h.locate p = some (id, m)) : (h.hold id m).Unambiguous where
  separate := hu.separate.hold hp
  apart := by
    have hfind : ∀ j, (h.hold id m).mappings.find? j =
        if id = j then some { m with holds := m.holds + 1 } else h.mappings.find? j := fun j => by
      simp [Host.hold, log, find?_put]
    have hother : ∀ text j v, j ≠ id → h.mappings.find? j = some v → text ∈ m.names → text ∉ v.names := by
      intro text j v hj hv htext hmem
      rcases hu.names_of_locate hp htext with ⟨m₀, hm₀, hold⟩ | hnone
      · exact hj (hu.apart text j v id m₀ hv hm₀ hmem hold)
      · exact hnone j v hv hmem
    intro text i v j v' hv hv' hmem hmem'
    rw [hfind] at hv hv'
    split at hv <;> split at hv'
    · next hi hj => exact hi.symm.trans hj
    · next hj =>
      rw [← Option.some.inj hv] at hmem
      exact absurd hmem' (hother text j v' (Ne.symm hj) hv' hmem)
    · next hi _ =>
      rw [← Option.some.inj hv'] at hmem'
      exact absurd hmem (hother text i v (Ne.symm hi) hv hmem')
    · exact hu.apart text i v j v' hv hv' hmem hmem'

theorem of_names (hu : h.Unambiguous) (separate : h'.Separate)
    (names : ∀ id m, h'.mappings.find? id = some m →
      ∃ m₀, h.mappings.find? id = some m₀ ∧ m.names = m₀.names) : h'.Unambiguous where
  separate := separate
  apart := by
    intro text id m id' m' hm hm' htext htext'
    obtain ⟨m₀, hm₀, heq⟩ := names id m hm
    obtain ⟨m₁, hm₁, heq'⟩ := names id' m' hm'
    exact hu.apart text id m₀ id' m₁ hm₀ hm₁ (heq ▸ htext) (heq' ▸ htext')

end Unambiguous

/-- A mapping that is there after a hold was given back was there before, with its image and strings. -/
theorem of_find?_closeMapping {i : Nat} (hv : (h.closeMapping i).mappings.find? id = some v) :
    ∃ v₀, h.mappings.find? id = some v₀ ∧ v.file = v₀.file ∧ v.image = v₀.image ∧ v.names = v₀.names := by
  unfold closeMapping at hv
  split at hv
  · exact ⟨v, hv, rfl, rfl, rfl⟩
  · next m hm =>
    split at hv
    · simp only [log, find?_erase, beq_iff_eq] at hv
      split at hv
      · simp at hv
      · exact ⟨v, hv, rfl, rfl, rfl⟩
    · simp only [log, find?_put, beq_iff_eq] at hv
      split at hv
      · next heq =>
        rw [← heq, ← Option.some.inj hv]
        exact ⟨m, hm, rfl, rfl, rfl⟩
      · exact ⟨v, hv, rfl, rfl, rfl⟩

namespace Unambiguous

theorem closeMapping (hu : h.Unambiguous) (id : Nat) : (h.closeMapping id).Unambiguous := by
  refine hu.of_names (hu.separate.closeMapping id) fun j v hv => ?_
  obtain ⟨v₀, hv₀, -, -, hnames⟩ := of_find?_closeMapping hv
  exact ⟨v₀, hv₀, hnames⟩

theorem moves (hu : h.Unambiguous) (hm : h.Moves h') : h'.Unambiguous := by
  have hseparate := hu.separate.moves hm
  cases hm with
  | aside _ mappings _ => exact hu.of_names hseparate fun id m hm => ⟨m, mappings ▸ hm, rfl⟩
  | held hp => exact hu.hold hp
  | returned id => exact hu.closeMapping id

theorem knownAs (hu : h.Unambiguous) (hm : h.mappings.find? id = some m) (htext : text ∈ m.names) :
    h.knownAs text = some (id, m) := by
  cases hknown : h.knownAs text with
  | none => exact absurd htext (not_mem_names_of_knownAs hknown hm)
  | some found =>
    have hfound := hu.separate.find?_of_knownAs hknown
    have hmem : text ∈ found.2.names := by simpa using List.find?_some hknown
    have hid := hu.apart text found.1 found.2 id m hfound hm hmem htext
    rw [hid, hm, Option.some.injEq] at hfound
    rw [hfound, ← hid]

end Unambiguous

/-! ## What a mapping keeps -/

/-- A mapping that is still there has its image and all of its strings. -/
theorem Evolves.kept (he : h.Evolves h') (hs : h.Separate) (hm : h.mappings.find? id = some m)
    (hv : h'.mappings.find? id = some v) : v.image = m.image ∧ m.names ⊆ v.names := by
  have hlater : h'.Separate ∧ id < h'.fresh ∧
      ∀ v, h'.mappings.find? id = some v → v.image = m.image ∧ m.names ⊆ v.names := by
    refine he.invariant (P := fun h' => h'.Separate ∧ id < h'.fresh ∧ ∀ v, h'.mappings.find? id = some v →
      v.image = m.image ∧ m.names ⊆ v.names) ?_ ⟨hs, hs.below.lt hm, fun v hv => ?_⟩
    · intro h₁ h₂ hmoves ⟨hs₁, hlt, hkept⟩
      refine ⟨hs₁.moves hmoves, Nat.lt_of_lt_of_le hlt hmoves.fresh_le, fun v₂ hv₂ => ?_⟩
      cases hmoves with
      | aside _ mappings _ => exact hkept v₂ (mappings ▸ hv₂)
      | returned i =>
        obtain ⟨v₁, hv₁, -, himage, hnames⟩ := of_find?_closeMapping hv₂
        rw [himage, hnames]
        exact hkept v₁ hv₁
      | @held p i m₁ hp =>
        simp only [hold, log, find?_put, beq_iff_eq] at hv₂
        split at hv₂
        · next heq =>
          subst heq
          rw [← Option.some.inj hv₂]
          rcases locate_cases hp with hknown | ⟨-, _, _, -, ⟨m₀, hmapped, rfl⟩ | ⟨-, hnew, -⟩⟩
          · exact hkept m₁ (hs₁.find?_of_knownAs hknown)
          · obtain ⟨himage, hnames⟩ := hkept m₀ (hs₁.find?_of_mappedFrom hmapped).1
            exact ⟨himage, List.subset_append_of_subset_left _ hnames⟩
          · omega
        · exact hkept v₂ hv₂
    · rw [hm, Option.some.injEq] at hv
      rw [← hv]
      exact ⟨rfl, List.Subset.refl _⟩
  exact hlater.2.2 v hv

/-- A path that was opened leads to the same code again if its mapping is still there. -/
theorem Unambiguous.locate_again (hu : h.Unambiguous) (hp : h.locate p = some (id, m))
    (he : (h.hold id m).Evolves h') (hu' : h'.Unambiguous) (hv : h'.mappings.find? id = some v) :
    h'.locate p = some (id, v) ∧ v.image = m.image := by
  have hheld : (h.hold id m).mappings.find? id = some { m with holds := m.holds + 1 } :=
    find?_put_self _ _ _
  obtain ⟨himage, hnames⟩ := he.kept (hu.separate.hold hp) hheld hv
  refine ⟨?_, himage⟩
  have hslash : p.hasSlash = true := by
    by_contra hno
    simp [locate, hno] at hp
  have hopened : p.text ∈ m.names := text_mem_of_locate hp
  have htext : p.text ∈ v.names := hnames hopened
  simp only [locate, hslash, if_true, hu'.knownAs hv htext]

end PluginHost.Host
