import PluginHost.Proofs.FileTree.WellFormed

/-!
# Files and their identities

A file is one object however many locations name it, so locations that hold files with one identity hold the
same content. Every change keeps it so, for what is written gets an identity that no file has.

* `FileTree.Holds`: some location holds a file.
* `FileTree.Coherent`: files with one identity are one file.
* `FileTree.Coherent.apply`, `FileTree.Coherent.applyAll`: changes keep it so.
-/

namespace PluginHost.FileTree

set_option autoImplicit false

variable {t t' : FileTree} {location here there : List String} {f g : File} {p : Path}

def Holds (t : FileTree) (f : File) : Prop := ∃ location, t.at? location = some (.file f)

/-- Files with one identity are one file, and the next identity is not in use. -/
structure Coherent (t : FileTree) : Prop where
  same : ∀ f g, t.Holds f → t.Holds g → f.id = g.id → f = g
  fresh : ∀ f, t.Holds f → f.id < t.fresh

theorem holds_of_file (h : t.file? p = some f) : t.Holds f := by
  unfold file? at h
  split at h
  · next location found hresolve =>
    rw [← Option.some.inj h]
    exact ⟨location, (walk_of_resolve hresolve).2⟩
  · cases h

/-! ## What a change adds -/

theorem holds_withEntry {entry : Entry} (hne : location ≠ []) (h : (t.withEntry location entry).Holds f) :
    t.Holds f ∨ entry = .file f := by
  obtain ⟨there, hat⟩ := h
  rw [at?_withEntry hne] at hat
  split at hat
  · exact .inr (Option.some.inj hat)
  · exact .inl ⟨there, hat⟩

theorem holds_clear (hne : location ≠ []) (h : (t.clear location).Holds f) : t.Holds f := by
  obtain ⟨there, hat⟩ := h
  rw [at?_clear hne] at hat
  split at hat
  · cases hat
  · exact ⟨there, hat⟩

/-- On the way to a place directories are made at most. -/
theorem holds_enterAll {way : List String} (henter : t.enterAll here way = some (t', there)) :
    t'.fresh = t.fresh ∧ (t'.Holds f → t.Holds f) := by
  induction way generalizing t here with
  | nil =>
    obtain ⟨rfl, -⟩ := Prod.mk.inj (Option.some.inj henter)
    exact ⟨rfl, id⟩
  | cons piece rest ih =>
    rw [FileTree.enterAll] at henter
    split at henter
    · next t₁ here₁ hfirst =>
      obtain ⟨hfresh, hholds⟩ := ih henter
      have hentered : t₁.fresh = t.fresh ∧ (t₁.Holds f → t.Holds f) := by
        unfold FileTree.enter at hfirst
        split at hfirst
        · split at hfirst
          · obtain ⟨rfl, -⟩ := Prod.mk.inj (Option.some.inj hfirst)
            exact ⟨rfl, id⟩
          · cases hfirst
        · split at hfirst
          · obtain ⟨rfl, -⟩ := Prod.mk.inj (Option.some.inj hfirst)
            have hnew : (t.withEntry (here ++ [piece]) .directory).Holds f → t.Holds f := fun h =>
              (holds_withEntry (by simp) h).resolve_right (by simp)
            exact ⟨rfl, hnew⟩
          · cases hfirst
        · cases hfirst
      exact ⟨hfresh.trans hentered.1, fun h => hentered.2 (hholds h)⟩
    · cases henter

theorem fresh_place (t : FileTree) (p : Path) (entry : Entry) : (t.place p entry).fresh = t.fresh := by
  unfold place
  split
  · rfl
  · split
    · rfl
    · next henter => exact (holds_enterAll (f := ⟨0, .octets []⟩) henter).1

theorem holds_place {entry : Entry} (h : (t.place p entry).Holds f) : t.Holds f ∨ entry = .file f := by
  unfold place at h
  split at h
  · exact .inl h
  · split at h
    · exact .inl h
    · next way last _ _ t' here henter =>
      have hne : here ++ [last] ≠ [] := by simp
      have hput : ((t'.clear (here ++ [last])).withEntry (here ++ [last]) entry).Holds f := h
      exact (holds_withEntry hne hput).imp_left fun hold => (holds_enterAll henter).2 (holds_clear hne hold)

/-! ## Changes -/

namespace Coherent

theorem place (ht : t.Coherent) (p : Path) {entry : Entry} (hentry : ∀ f, entry = .file f → t.Holds f) :
    (t.place p entry).Coherent := by
  have hold : ∀ f, (t.place p entry).Holds f → t.Holds f := fun f hf =>
    (holds_place hf).elim id (hentry f)
  refine ⟨fun f g hf hg => ht.same f g (hold f hf) (hold g hg), fun f hf => ?_⟩
  rw [fresh_place]
  exact ht.fresh f (hold f hf)

theorem write (ht : t.Coherent) (p : Path) (content : Content) : (t.write p content).Coherent := by
  have hfiles : ∀ f, (t.write p content).Holds f → t.Holds f ∨ f = ⟨t.fresh, content⟩ := fun f hf =>
    (holds_place hf).imp_right fun heq => (Entry.file.inj heq).symm
  refine ⟨fun f g hf hg hid => ?_, fun f hf => ?_⟩
  · rcases hfiles f hf with hf | rfl <;> rcases hfiles g hg with hg | rfl
    · exact ht.same f g hf hg hid
    · exact absurd hid (Nat.ne_of_lt (ht.fresh f hf))
    · exact absurd hid (Nat.ne_of_gt (ht.fresh g hg))
    · rfl
  · have hfresh : (t.write p content).fresh = t.fresh + 1 := fresh_place _ _ _
    rw [hfresh]
    rcases hfiles f hf with hf | rfl
    · exact Nat.lt_succ_of_lt (ht.fresh f hf)
    · exact Nat.lt_succ_self _

theorem apply (ht : t.Coherent) (change : FileChange) : (t.apply change).Coherent := by
  cases change with
  | write p content => exact ht.write p content
  | makeDirectory p =>
    simp only [FileTree.apply, makeDirectory]
    split
    · exact ht
    · exact ht.place p fun f hf => by cases hf
  | makeLink p goal =>
    simp only [FileTree.apply, makeLink]
    split
    · exact ht
    · exact ht.place p fun f hf => by cases hf
  | makeAlias p old =>
    simp only [FileTree.apply, makeAlias]
    split
    · exact ht
    · next entry _ hat =>
      refine ht.place p fun f hf => ?_
      obtain ⟨location, -, hat⟩ := Option.bind_eq_some_iff.1 hat
      exact ⟨location, hf ▸ hat⟩
    · exact ht
  | copy p old =>
    simp only [FileTree.apply, copy]
    split
    · exact ht.write p _
    · exact ht
  | remove p =>
    simp only [FileTree.apply, remove]
    split
    · next location h =>
      have hold : ∀ f, (t.clear location).Holds f → t.Holds f := fun f hf =>
        holds_clear (WellFormed.location_ne_nil h) hf
      exact ⟨fun f g hf hg => ht.same f g (hold f hf) (hold g hg), fun f hf => ht.fresh f (hold f hf)⟩
    · exact ht

theorem applyAll (ht : t.Coherent) (changes : List FileChange) : (changes.foldl FileTree.apply t).Coherent := by
  induction changes generalizing t with
  | nil => exact ht
  | cons change rest ih => exact ih (ht.apply change)

end Coherent

theorem coherent_withDirectory (names : List String) : (withDirectory names).Coherent := by
  have hnone : ∀ f, ¬ (withDirectory names).Holds f := by
    rintro f ⟨location, hat⟩
    rw [at?_withDirectory] at hat
    split at hat <;> cases hat
  exact ⟨fun f _ hf => absurd hf (hnone f), fun f hf => absurd hf (hnone f)⟩

end PluginHost.FileTree
