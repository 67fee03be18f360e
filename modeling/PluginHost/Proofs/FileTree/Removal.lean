import PluginHost.Proofs.FileTree.WellFormed

/-!
# Files that are removed

The canonical path of a file names the file itself, so what is removed there is that file, and then the path
leads nowhere.

* `FileTree.walkWith_gone`: a walk stops where nothing is.
* `FileTree.WellFormed.location_canonical`: the place that a canonical path names.
* `FileTree.WellFormed.canonical_remove`: after the removal.
-/

namespace PluginHost.FileTree

set_option autoImplicit false

variable {t : FileTree} {location here : List String}

/-! ## Walks -/

theorem walk_names {names : List String} (hnames : ∀ name ∈ names, IsEntryName name)
    (hr : t.Reached (here ++ names)) (hthere : (t.at? (here ++ names)).isSome) (links : Nat) :
    t.walk links here names = .ok (here ++ names) := by
  cases links <;> exact walkWith_names hnames hr hthere

/-- Above the last name there are directories, and at the last name there is nothing. -/
theorem walkWith_gone {follow : List String → Path → List String → Except FileError (List String)}
    {way rest : List String} {name : String} (hnames : ∀ n ∈ way ++ [name], IsEntryName n)
    (hg : t.Grounded (here ++ (way ++ [name]))) (hnone : t.at? (here ++ (way ++ [name])) = none) :
    t.walkWith follow here (way ++ name :: rest) = .error .notFound := by
  have hd : t.at? here = some .directory := hg here (List.prefix_append here _) (by simp)
  induction way generalizing here with
  | nil =>
    have hname := hnames name (by simp)
    rw [List.nil_append] at hnone
    rw [List.nil_append, walkWith, hd]
    simp only [hname.nonempty, hname.notHere, hname.notUp, or_self, if_false, Nat.not_lt.2 hname.short, hnone]
  | cons first way ih =>
    have hfirst := hnames first (by simp)
    have hsplit : here ++ (first :: way ++ [name]) = here ++ [first] ++ (way ++ [name]) := by simp
    rw [hsplit] at hg hnone
    have hnext : t.at? (here ++ [first]) = some .directory := hg _ (List.prefix_append _ _) (by simp)
    rw [List.cons_append, walkWith, hd]
    simp only [hfirst.nonempty, hfirst.notHere, hfirst.notUp, or_self, if_false, Nat.not_lt.2 hfirst.short,
      hnext]
    exact ih (fun n hn => hnames n (by simp_all)) hg hnone hnext

/-! ## Canonical paths -/

theorem meaningful_absolute (hne : location ≠ []) (hnames : ∀ name ∈ location, IsEntryName name) :
    Path.meaningful (Path.absolute location).segments = location := by
  rw [Path.segments_absolute hne fun name hname => (hnames name hname).noSlash]
  have hall : Path.meaningful location = location := by
    refine List.filter_eq_self.2 fun name hname => ?_
    simp [(hnames name hname).nonempty, (hnames name hname).notHere]
  exact hall

namespace WellFormed

variable {k : Path}

theorem location_canonical (ht : t.WellFormed) (hk : t.canonical? k = some k) {f : File}
    (hf : t.file? k = some f) :
    ∃ location, k = Path.absolute location ∧ location ≠ [] ∧ t.location? k = some location ∧
      t.Reached location ∧ ∀ name ∈ location, IsEntryName name := by
  obtain ⟨location, entry, hresolve, rfl, hshort⟩ := canonical_cases hk
  have hat := (walk_of_resolve hresolve).2
  have hr := reached_of_resolve ht.standing hresolve
  have hnames := ht.names location entry hat
  have hne : location ≠ [] := by
    rintro rfl
    rw [at?_root, Option.some.injEq] at hat
    simp [file?, hresolve, ← hat] at hf
  refine ⟨location, rfl, hne, ?_, hr, hnames⟩
  obtain ⟨way, last, rfl⟩ := (List.eq_nil_or_concat' location).resolve_left hne
  have hlast := hnames last (by simp)
  have htarget : target (Path.absolute (way ++ [last])) = some (way, last) := by
    have hname : isName last = true := by simp [isName, hlast.notUp, hlast.short]
    simp [target, meaningful_absolute hne hnames, hasNul_absolute hnames, Nat.not_lt.2 hshort, hname]
  have hd : t.at? way = some .directory := hr.grounded way (List.prefix_append way _) (by simp)
  have hway : t.Reached way := by
    refine .of_directory (fun _ above hpre _ => hr.grounded above (hpre.trans (List.prefix_append way _)) ?_) hd
    rintro rfl
    have hle := hpre.length_le
    simp only [List.length_append, List.length_singleton] at hle
    omega
  have hwalk : t.walk linkLimit [] way = .ok way :=
    walk_names (fun n hn => hnames n (by simp [hn])) hway (by simp [hd]) linkLimit
  simp [location?, htarget, start, hwalk]

/-- When a file is removed at its canonical path, this path leads nowhere. -/
theorem canonical_remove (ht : t.WellFormed) (hk : t.canonical? k = some k) {f : File}
    (hf : t.file? k = some f) : (t.remove k).canonical? k = none := by
  obtain ⟨location, rfl, hne, hlocation, hr, hnames⟩ := ht.location_canonical hk hf
  have hremove : t.remove (Path.absolute location) = t.clear location := by simp only [remove, hlocation]
  have hgrounded : (t.clear location).Grounded location := by
    intro above hpre habove
    rw [at?_clear hne, if_neg fun hpre' => habove (hpre.eq_of_length_le hpre'.length_le)]
    exact hr.grounded above hpre habove
  have hgone : (t.clear location).at? location = none := by rw [at?_clear hne, if_pos List.prefix_rfl]
  obtain ⟨way, last, rfl⟩ := (List.eq_nil_or_concat' location).resolve_left hne
  have hwalk : ∀ links, (t.clear (way ++ [last])).walk links [] (Path.absolute (way ++ [last])).segments =
      .error .notFound := by
    intro links
    rw [Path.segments_absolute hne fun name hname => (hnames name hname).noSlash]
    have hgo : ∀ follow, (t.clear (way ++ [last])).walkWith follow [] ("" :: (way ++ [last])) =
        .error .notFound := by
      intro follow
      have hstop : (t.clear (way ++ [last])).walkWith follow [] (way ++ [last]) = .error .notFound :=
        walkWith_gone hnames hgrounded hgone
      rw [walkWith, at?_root]
      simpa using hstop
    cases links <;> exact hgo _
  rw [hremove]
  cases hcanonical : (t.clear (way ++ [last])).canonical? (Path.absolute (way ++ [last])) with
  | none => rfl
  | some found =>
    obtain ⟨_, _, hresolve, -, -⟩ := canonical_cases hcanonical
    have hok := (walk_of_resolve hresolve).1
    have hstart : start (Path.absolute (way ++ [last])) (t.clear (way ++ [last])).workingDirectory = [] := by
      simp [start]
    rw [hstart, hwalk] at hok
    cases hok

end WellFormed

end PluginHost.FileTree
