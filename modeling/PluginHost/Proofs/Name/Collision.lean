import PluginHost.Proofs.Name.Canonical

/-!
# Texts that are one name

Blanks say nothing in a name, and neither does a `::` in front of a text that does not start with one. There
is no other way to write one name twice.

* `Name.compact`, `Name.Respaced`: a text without its blanks, and texts that differ in blanks only.
* `Name.Bare`: a text of which another one says what it leaves out.
* `Name.normalize_eq_iff`: which texts have the same canonical form.
* `Name.recognized`: what normalizing does to a text.
-/

namespace PluginHost.Name

set_option autoImplicit false

open PluginHost.Text (isBlank)

/-! ## Blanks -/

def compact (cs : List Char) : List Char := cs.filter fun c => !isBlank c

/-- The second text comes from the first by putting blanks in and taking blanks out, anywhere. -/
inductive Respaced : List Char → List Char → Prop
  | done : Respaced [] []
  | keep (c : Char) {cs ds : List Char} : Respaced cs ds → Respaced (c :: cs) (c :: ds)
  | insert {c : Char} {cs ds : List Char} : isBlank c = true → Respaced cs ds → Respaced cs (c :: ds)
  | remove {c : Char} {cs ds : List Char} : isBlank c = true → Respaced cs ds → Respaced (c :: cs) ds

variable {cs ds : List Char}

theorem compact_cons_of_blank {c : Char} (hc : isBlank c = true) : compact (c :: cs) = compact cs :=
  List.filter_cons_of_neg (by simp [hc])

theorem compact_cons_of_not_blank {c : Char} (hc : isBlank c = false) :
    compact (c :: cs) = c :: compact cs :=
  List.filter_cons_of_pos (by simp [hc])

theorem Respaced.compact_eq (h : Respaced cs ds) : compact cs = compact ds := by
  induction h with
  | done => rfl
  | @keep c cs ds _ ih =>
    cases hc : isBlank c with
    | true => rw [compact_cons_of_blank hc, compact_cons_of_blank hc, ih]
    | false => rw [compact_cons_of_not_blank hc, compact_cons_of_not_blank hc, ih]
  | insert hc _ ih => rw [compact_cons_of_blank hc, ih]
  | remove hc _ ih => rw [compact_cons_of_blank hc, ih]

theorem respaced_of_compact_eq (h : compact cs = compact ds) : Respaced cs ds := by
  induction cs generalizing ds with
  | nil =>
    induction ds with
    | nil => exact .done
    | cons d ds ih =>
      cases hd : isBlank d with
      | true => exact .insert hd (ih (h.trans (compact_cons_of_blank hd)))
      | false =>
        rw [compact_cons_of_not_blank hd] at h
        exact absurd h (List.cons_ne_nil _ _).symm
  | cons c cs ih =>
    cases hc : isBlank c with
    | true => exact .remove hc (ih ((compact_cons_of_blank hc).symm.trans h))
    | false =>
      rw [compact_cons_of_not_blank hc] at h
      -- the blanks in front of the character that has to be `c`
      induction ds with
      | nil => exact absurd h (List.cons_ne_nil _ _)
      | cons d ds ihd =>
        cases hd : isBlank d with
        | true => exact .insert hd (ihd (h.trans (compact_cons_of_blank hd)))
        | false =>
          rw [compact_cons_of_not_blank hd] at h
          obtain ⟨rfl, hrest⟩ := List.cons.inj h
          exact .keep c (ih hrest)

/-- Texts differ in blanks only when they are equal without them. -/
theorem respaced_iff : Respaced cs ds ↔ compact cs = compact ds :=
  ⟨Respaced.compact_eq, respaced_of_compact_eq⟩

/-! ## The `::` in front -/

/-- A compact text, with `::` in front unless it is there already. -/
def rooted (cs : List Char) : List Char := if root <+: cs then cs else root ++ cs

/-- The first text does not start with `::`, and the second one is the first with `::` in front. -/
def Bare (cs ds : List Char) : Prop := ¬ root <+: cs ∧ ds = root ++ cs

theorem canonical_eq (cs : List Char) : canonical cs = rooted (compact cs) := by
  rw [canonical, rooted]
  by_cases h : root <+: compact cs
  · rw [if_pos h]
    exact if_pos (List.isPrefixOf_iff_prefix.2 h)
  · rw [if_neg h]
    exact if_neg (mt List.isPrefixOf_iff_prefix.1 h)

theorem rooted_of_bare (h : Bare cs ds) : rooted cs = rooted ds := by
  obtain ⟨hbare, rfl⟩ := h
  rw [rooted, rooted, if_neg hbare, if_pos (List.prefix_append root cs)]

theorem rooted_eq_iff : rooted cs = rooted ds ↔ cs = ds ∨ Bare cs ds ∨ Bare ds cs := by
  constructor
  · intro h
    rw [rooted, rooted] at h
    split at h
    · split at h
      · exact .inl h
      · next hds => exact .inr (.inr ⟨hds, h⟩)
    · next hcs =>
      split at h
      · exact .inr (.inl ⟨hcs, h.symm⟩)
      · exact .inl (List.append_cancel_left h)
  · rintro (rfl | h | h)
    · rfl
    · exact rooted_of_bare h
    · exact (rooted_of_bare h).symm

/-! ## Normalizing -/

theorem canonical_of_isCanonical (h : IsCanonical cs) : canonical cs = cs := by
  have hcompact : compact cs = cs := List.filter_eq_self.2 fun c hc => by simp [h.2 c hc]
  rw [canonical_eq, hcompact, rooted, if_pos (List.isPrefixOf_iff_prefix.1 h.1)]

/-- A text that is reused is what would be built from it. -/
theorem normalize_eq (s : String) : normalize s = String.ofList (canonical s.toList) := by
  rw [normalize, normalized]
  split
  · next h => rw [canonical_of_isCanonical ((isCanonical_iff s.toList).1 h), String.ofList_toList]
  · rfl

theorem borrowed_normalized_iff (s : String) :
    (normalized s).borrowed = true ↔ IsCanonical s.toList := by
  rw [normalized, ← isCanonical_iff]
  split <;> simp_all

theorem normalized_normalize (s : String) : normalized (normalize s) = ⟨normalize s, true⟩ := by
  have hcanonical := (isCanonical_iff (normalize s).toList).2 (isCanonical_normalize s)
  rw [normalized, if_pos hcanonical]

theorem normalize_eq_iff (s t : String) : normalize s = normalize t ↔
    compact s.toList = compact t.toList ∨ Bare (compact s.toList) (compact t.toList) ∨
      Bare (compact t.toList) (compact s.toList) := by
  rw [normalize_eq, normalize_eq, String.ofList_inj, canonical_eq, canonical_eq, rooted_eq_iff]

-- a single colon in front is part of the name, and is no `::`
example : normalize ":a" = normalize ": ::a" ∧ normalize ":a" ≠ normalize "a" ∧
    normalize "" = normalize ": :\u3000" := by decide

/-- What normalizing does to a text, and which other texts it does not tell from it. -/
structure Recognized (s : String) : Prop where
  starts : root <+: (normalize s).toList
  unspaced : ∀ c ∈ (normalize s).toList, isBlank c = false
  /-- The result is reused as it stands. -/
  again : normalized (normalize s) = ⟨normalize s, true⟩
  borrowed : (normalized s).borrowed = true ↔ IsCanonical s.toList
  unchanged : (normalized s).borrowed = true ↔ normalize s = s
  rebuilt : normalize s = String.ofList (canonical s.toList)
  respaced : ∀ t : String, Respaced s.toList t.toList → normalize t = normalize s
  collides : ∀ t : String, normalize s = normalize t ↔
    compact s.toList = compact t.toList ∨ Bare (compact s.toList) (compact t.toList) ∨
      Bare (compact t.toList) (compact s.toList)

theorem recognized (s : String) : Recognized s where
  starts := List.isPrefixOf_iff_prefix.1 (isCanonical_normalize s).1
  unspaced := (isCanonical_normalize s).2
  again := normalized_normalize s
  borrowed := borrowed_normalized_iff s
  unchanged := (borrowed_normalized_iff s).trans normalize_eq_self_iff.symm
  rebuilt := normalize_eq s
  respaced t h := ((normalize_eq_iff s t).2 (.inl h.compact_eq)).symm
  collides := normalize_eq_iff s

theorem recognized_of_spaced : Respaced ": a".toList ":\ta\u3000".toList ∧
    normalize ":\ta\u3000" = normalize ": a" ∧ Bare (compact ": a".toList) (compact "::\n:a".toList) ∧
    normalize ": a" = normalize "::\n:a" := by
  have hrespaced : Respaced ": a".toList ":\ta\u3000".toList := respaced_iff.2 (by decide)
  have hbare : Bare (compact ": a".toList) (compact "::\n:a".toList) := by
    rw [Bare]
    decide
  have hrecognized := recognized ": a"
  exact ⟨hrespaced, hrecognized.respaced _ hrespaced, hbare, (hrecognized.collides _).2 (.inr (.inl hbare))⟩

end PluginHost.Name
