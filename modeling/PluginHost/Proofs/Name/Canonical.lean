import PluginHost.Name

/-!
# Canonical names

Normalizing gives a canonical name, and the canonical names are those that it leaves alone.

* `Name.isCanonical_normalize`: the result of normalizing.
* `Name.normalize_eq_self_iff`: what normalizing leaves alone.
-/

namespace PluginHost.Name

set_option autoImplicit false

open PluginHost.Text (isBlank)

theorem isCanonical_canonical (cs : List Char) : IsCanonical (canonical cs) := by
  have hcompact : ∀ c ∈ cs.filter fun c => !isBlank c, isBlank c = false := by
    intro c hc
    simpa using (List.mem_filter.1 hc).2
  have hroot : ∀ c ∈ root, isBlank c = false := by
    intro c hc
    obtain rfl : c = ':' := by simpa [root] using hc
    decide
  unfold canonical
  simp only
  split
  · next hrooted => exact ⟨hrooted, hcompact⟩
  · refine ⟨by simp [List.isPrefixOf_iff_prefix], fun c hc => ?_⟩
    rcases List.mem_append.1 hc with hc | hc
    · exact hroot c hc
    · exact hcompact c hc

theorem normalize_of_isCanonical {s : String} (hs : IsCanonical s.toList) : normalize s = s := by
  have hcanonical := (isCanonical_iff s.toList).2 hs
  simp [normalize, normalized, hcanonical]

theorem isCanonical_normalize (s : String) : IsCanonical (normalize s).toList := by
  by_cases hs : IsCanonical s.toList
  · rw [normalize_of_isCanonical hs]
    exact hs
  · have hnot : isCanonical s.toList = false := by
      rw [← Bool.not_eq_true, isCanonical_iff]
      exact hs
    simp only [normalize, normalized, hnot, Bool.false_eq_true, if_false, String.toList_ofList]
    exact isCanonical_canonical s.toList

theorem normalize_eq_self_iff {s : String} : normalize s = s ↔ IsCanonical s.toList := by
  refine ⟨fun heq => ?_, normalize_of_isCanonical⟩
  rw [← heq]
  exact isCanonical_normalize s

@[simp] theorem normalize_normalize (s : String) : normalize (normalize s) = normalize s :=
  normalize_of_isCanonical (isCanonical_normalize s)

end PluginHost.Name
