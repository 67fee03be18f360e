import Mathlib.Data.List.Basic
import PluginHost.Path

/-!
# Pieces of paths

A path is cut at its slashes. The absolute path through some names is cut into those names again, as long
as no name holds a slash.

* `Path.of_mem_segments`: what a piece is made of.
* `Path.segments_absolute`: the pieces of an absolute path.
-/

namespace PluginHost.Path

set_option autoImplicit false

theorem split_eq_splitOn (cs : List Char) : split cs = cs.splitOn '/' := by
  induction cs with
  | nil => rfl
  | cons c cs ih =>
    rw [split, ih]
    unfold List.splitOn
    rw [List.splitOnP_cons_eq_if_modifyHead]
    by_cases hc : c = '/'
    · simp [hc]
    · rw [if_neg hc, if_neg (by simpa using hc)]
      cases hrest : cs.splitOnP (· == '/') with
      | nil => exact absurd hrest (List.splitOnP_ne_nil _ _)
      | cons piece more => rfl

/-- A piece holds no slash, and nothing that the text does not hold. -/
theorem of_mem_split {cs piece : List Char} (hpiece : piece ∈ split cs) :
    '/' ∉ piece ∧ ∀ c ∈ piece, c ∈ cs := by
  induction cs generalizing piece with
  | nil => simp_all [split]
  | cons c cs ih =>
    have hstep : ∀ p, p ∈ split cs → '/' ∉ p ∧ ∀ d ∈ p, d ∈ c :: cs := fun p hp =>
      ⟨(ih hp).1, fun d hd => List.mem_cons_of_mem c ((ih hp).2 d hd)⟩
    rw [split] at hpiece
    split at hpiece
    · rcases List.mem_cons.1 hpiece with rfl | hrest
      · simp
      · exact hstep piece hrest
    · next hc =>
      split at hpiece
      · rw [List.mem_singleton] at hpiece
        simp [hpiece, Ne.symm hc]
      · next first more hsplit =>
        rcases List.mem_cons.1 hpiece with rfl | hrest
        · obtain ⟨hslash, hchars⟩ := hstep first (by simp [hsplit])
          refine ⟨fun hmem => ?_, fun d hd => ?_⟩
          · rcases List.mem_cons.1 hmem with heq | hmem
            · exact hc heq.symm
            · exact hslash hmem
          · rcases List.mem_cons.1 hd with rfl | hd
            · exact List.mem_cons_self
            · exact hchars d hd
        · exact hstep piece (by simp [hsplit, hrest])

theorem of_mem_segments {p : Path} {piece : String} (hpiece : piece ∈ p.segments) :
    '/' ∉ piece.toList ∧ ∀ c ∈ piece.toList, c ∈ p.text.toList := by
  obtain ⟨cs, hcs, rfl⟩ := List.mem_map.1 hpiece
  rw [String.toList_ofList]
  exact of_mem_split hcs

theorem segments_ne_nil (p : Path) : p.segments ≠ [] := by
  rw [segments, split_eq_splitOn]
  simp

/-! ## The text of an absolute path -/

theorem toList_absolute (names : List String) :
    (absolute names).text.toList = '/' :: ['/'].intercalate (names.map String.toList) := by
  simp only [absolute, String.toList_append, String.toList_intercalate]
  rfl

theorem mem_of_mem_intercalate {sep c : Char} {pieces : List (List Char)}
    (hc : c ∈ [sep].intercalate pieces) : c = sep ∨ ∃ piece ∈ pieces, c ∈ piece := by
  induction pieces with
  | nil => simp at hc
  | cons piece rest ih =>
    cases rest with
    | nil => exact .inr ⟨piece, by simp, by simpa using hc⟩
    | cons next rest =>
      rw [List.intercalate_cons_cons, List.mem_append, List.mem_append, List.mem_singleton] at hc
      rcases hc with (hc | hc) | hc
      · exact .inr ⟨piece, by simp, hc⟩
      · exact .inl hc
      · rcases ih hc with h | ⟨found, hfound, h⟩
        · exact .inl h
        · exact .inr ⟨found, List.mem_cons_of_mem piece hfound, h⟩

theorem mem_toList_absolute {names : List String} {c : Char}
    (hc : c ∈ (absolute names).text.toList) : c = '/' ∨ ∃ name ∈ names, c ∈ name.toList := by
  rw [toList_absolute] at hc
  rcases List.mem_cons.1 hc with hslash | hc
  · exact .inl hslash
  · rcases mem_of_mem_intercalate hc with hslash | ⟨piece, hpiece, hc⟩
    · exact .inl hslash
    · obtain ⟨name, hname, rfl⟩ := List.mem_map.1 hpiece
      exact .inr ⟨name, hname, hc⟩

@[simp] theorem isAbsolute_absolute (names : List String) : (absolute names).isAbsolute = true := by
  rw [isAbsolute, toList_absolute]
  rfl

@[simp] theorem hasSlash_absolute (names : List String) : (absolute names).hasSlash = true := by
  simp [hasSlash, toList_absolute]

/-! ## Reading an absolute path -/

theorem segments_root : (absolute []).segments = ["", ""] := by decide

theorem segments_absolute {names : List String} (hne : names ≠ [])
    (hslash : ∀ name ∈ names, '/' ∉ name.toList) : (absolute names).segments = "" :: names := by
  have hpieces : ∀ piece ∈ names.map String.toList, '/' ∉ piece := by
    intro piece hpiece
    obtain ⟨name, hname, rfl⟩ := List.mem_map.1 hpiece
    exact hslash name hname
  have hmap : (names.map String.toList) ≠ [] := by simpa using hne
  have hid : String.ofList ∘ String.toList = id := funext fun _ => String.ofList_toList
  rw [segments, toList_absolute, split, if_pos rfl, split_eq_splitOn,
    List.splitOn_intercalate _ hpieces hmap, List.map_cons, List.map_map, hid, List.map_id]

end PluginHost.Path
