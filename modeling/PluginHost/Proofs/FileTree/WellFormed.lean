import PluginHost.FileTree.Change
import PluginHost.Proofs.FileTree.Walk

/-!
# Well-formed file trees

The names in a file tree are names that an entry can have, and the working directory, while it is there,
is below directories only. Every change keeps a tree in this form, also when it takes the working directory
away and puts something in its place.

* `FileTree.WellFormed`: the form.
* `FileTree.wellFormed_withDirectory`: trees to start from.
* `FileTree.WellFormed.apply`: changes keep the form.
* `FileTree.WellFormed.resolve_canonical`: the canonical path of a path leads where the path leads.
-/

namespace PluginHost.FileTree

set_option autoImplicit false

open PluginHost.Table

variable {t t' : FileTree} {location here there : List String} {name : String} {entry : Entry}

structure WellFormed (t : FileTree) : Prop where
  names : ∀ location entry, t.at? location = some entry → ∀ name ∈ location, IsEntryName name
  home : ∀ name ∈ t.workingDirectory, IsEntryName name
  standing : t.Standing t.workingDirectory

theorem start_eq (p : Path) (here : List String) : start p here = [] ∨ start p here = here := by
  unfold start
  split
  · exact .inl rfl
  · exact .inr rfl

/-! ## Entries put and cleared -/

def withEntry (t : FileTree) (location : List String) (entry : Entry) : FileTree :=
  { t with entries := t.entries.put location entry }

theorem at?_withEntry (hne : location ≠ []) (there : List String) :
    (t.withEntry location entry).at? there =
      if location = there then some entry else t.at? there := by
  by_cases hroot : there = []
  · subst hroot
    rw [if_neg hne]
    rfl
  · simp [at?, withEntry, find?_put, hroot]

theorem find?_filter_keys (entries : Table (List String) Entry) (p : List String → Bool)
    (location : List String) :
    find? (entries.filter fun e => p e.1 : List (List String × Entry)) location =
      if p location then find? entries location else none := by
  induction entries with
  | nil => simp
  | cons e rest ih =>
    obtain ⟨k, v⟩ := e
    by_cases hk : k = location
    · subst hk
      by_cases hp : p k = true
      · simp [hp, find?]
      · simp only [List.filter_cons, hp, Bool.false_eq_true, if_false] at ih ⊢
        exact ih
    · by_cases hp : p k = true
      · simp only [List.filter_cons, hp, if_true]
        simp only [find?, beq_iff_eq, hk, if_false, ih]
      · simp only [List.filter_cons, hp, Bool.false_eq_true, if_false]
        simp only [find?, beq_iff_eq, hk, if_false, ih]

theorem at?_clear (hne : location ≠ []) (there : List String) :
    (t.clear location).at? there = if location <+: there then none else t.at? there := by
  by_cases hroot : there = []
  · subst hroot
    rw [if_neg fun hpre => hne (List.prefix_nil.1 hpre)]
    rfl
  · simp only [at?, clear, List.isEmpty_iff, hroot, if_false]
    rw [find?_filter_keys t.entries fun k => !location.isPrefixOf k]
    by_cases hpre : location <+: there
    · have htrue : location.isPrefixOf there = true := List.isPrefixOf_iff_prefix.2 hpre
      simp [hpre, htrue]
    · have hfalse : location.isPrefixOf there = false := by
        rw [← Bool.not_eq_true, List.isPrefixOf_iff_prefix]
        exact hpre
      simp [hpre, hfalse]

/-- What is put where nothing was, in a directory, leaves every location standing. -/
theorem Standing.withEntry_of_none (hs : t.Standing there) (hne : location ≠ [])
    (hnone : t.at? location = none) (hsame : there = location → t.Grounded location) :
    (t.withEntry location entry).Standing there := by
  intro hd above hpre habove
  rw [at?_withEntry hne] at hd
  have hgrounded : t.Grounded there := by
    by_cases heq : there = location
    · rw [heq]; exact hsame heq
    · rw [if_neg (Ne.symm heq)] at hd
      exact hs hd
  have hat := hgrounded above hpre habove
  rw [at?_withEntry hne, if_neg (fun heq => ?_), hat]
  rw [← heq, hnone] at hat
  simp at hat

theorem Standing.clear (hs : t.Standing there) (hne : location ≠ []) :
    (t.clear location).Standing there := by
  intro hd above hpre habove
  rw [at?_clear hne] at hd ⊢
  split at hd
  · simp at hd
  · next hout =>
    rw [if_neg fun hpre' => hout (hpre'.trans hpre)]
    exact hs hd above hpre habove

theorem Standing.replace (hs : t.Standing there) (hne : location ≠ [])
    (hsame : there = location → t.Grounded location) :
    ((t.clear location).withEntry location entry).Standing there := by
  refine (hs.clear hne).withEntry_of_none hne ?_ fun heq above hpre habove => ?_
  · rw [at?_clear hne, if_pos List.prefix_rfl]
  · rw [at?_clear hne, if_neg fun hpre' => habove ?_]
    · exact hsame heq above hpre habove
    · exact hpre.eq_of_length_le hpre'.length_le

/-! ## Making the way -/

/-- A piece that is looked for and leads to nothing is a name, looked for in a directory. -/
theorem of_walk_notFound {links : Nat} {piece : String} (hplain : '/' ∉ piece.toList)
    (hnul : '\x00' ∉ piece.toList) (hwalk : t.walk links here [piece] = .error .notFound) :
    t.at? here = some .directory ∧ IsEntryName piece := by
  have hgo : ∀ follow, t.walkWith follow here [piece] = .error .notFound →
      t.at? here = some .directory ∧ IsEntryName piece := by
    intro follow h
    rw [walkWith] at h
    split at h
    · next hd =>
      refine ⟨hd, ?_⟩
      split at h
      · simp [walkWith] at h
      · next hsome =>
        split at h
        · simp [walkWith] at h
        · next hup =>
          split at h
          · simp at h
          · next hshort =>
            rw [not_or] at hsome
            exact ⟨hsome.1, hsome.2, hup, Nat.not_lt.1 hshort, hplain, hnul⟩
    · simp at h
  cases links <;> exact hgo _ hwalk

/-- Where entering directories ends: in the working directory or in a directory, which stands. -/
structure Entered (t t' : FileTree) (here : List String) : Prop where
  form : t'.WellFormed
  sameHome : t'.workingDirectory = t.workingDirectory
  standing : t'.Standing here

theorem WellFormed.withNew (ht : t.WellFormed) (hd : t.at? here = some .directory)
    (hs : t.Standing here) (hname : IsEntryName name) (hnone : t.at? (here ++ [name]) = none) :
    Entered t (t.withEntry (here ++ [name]) .directory) (here ++ [name]) := by
  have hne : here ++ [name] ≠ [] := by simp
  have hg : t.Grounded (here ++ [name]) := (hs hd).child hd name
  refine ⟨⟨fun location entry hat => ?_, ht.home, ?_⟩, rfl, ?_⟩
  · rw [at?_withEntry hne] at hat
    split at hat
    · next heq =>
      subst heq
      intro n hn
      rcases List.mem_append.1 hn with hn | hn
      · exact ht.names here _ hd n hn
      · rw [List.mem_singleton.1 hn]
        exact hname
    · exact ht.names location entry hat
  · exact ht.standing.withEntry_of_none hne hnone fun _ => hg
  · have hsame : t.Standing (here ++ [name]) := fun _ => hg
    exact hsame.withEntry_of_none hne hnone fun _ => hg

theorem WellFormed.enter (ht : t.WellFormed) (hs : t.Standing here) {piece : String}
    (hplain : '/' ∉ piece.toList) (hnul : '\x00' ∉ piece.toList)
    (henter : t.enter here piece = some (t', there)) :
    Entered t t' there ∧ t'.at? there = some .directory := by
  unfold FileTree.enter at henter
  split at henter
  · next hwalk =>
    split at henter
    · next hd =>
      obtain ⟨rfl, rfl⟩ := Prod.mk.inj (Option.some.inj henter)
      exact ⟨⟨ht, rfl, (reached_of_walk hs (by simp) hwalk).standing⟩, hd⟩
    · simp at henter
  · next hwalk =>
    split at henter
    · next hnone =>
      obtain ⟨rfl, rfl⟩ := Prod.mk.inj (Option.some.inj henter)
      obtain ⟨hd, hname⟩ := of_walk_notFound hplain hnul hwalk
      refine ⟨ht.withNew hd hs hname hnone, ?_⟩
      exact (at?_withEntry (by simp) _).trans (if_pos rfl)
    · simp at henter
  · simp at henter

theorem WellFormed.enterAll (ht : t.WellFormed) (hs : t.Standing here) {way : List String}
    (hway : ∀ piece ∈ way, '/' ∉ piece.toList ∧ '\x00' ∉ piece.toList)
    (henter : t.enterAll here way = some (t', there)) :
    Entered t t' there ∧ (way = [] ∧ there = here ∨ t'.at? there = some .directory) := by
  induction way generalizing t here with
  | nil =>
    obtain ⟨rfl, rfl⟩ := Prod.mk.inj (Option.some.inj henter)
    exact ⟨⟨ht, rfl, hs⟩, .inl ⟨rfl, rfl⟩⟩
  | cons piece rest ih =>
    rw [FileTree.enterAll] at henter
    split at henter
    · next t₁ here₁ hfirst =>
      obtain ⟨hplain, hnul⟩ := hway piece (by simp)
      obtain ⟨hentered, hd⟩ := ht.enter hs hplain hnul hfirst
      obtain ⟨hrest, hplace⟩ := ih hentered.form hentered.standing
        (fun p hp => hway p (List.mem_cons_of_mem piece hp)) henter
      refine ⟨⟨hrest.form, hrest.sameHome.trans hentered.sameHome, hrest.standing⟩, .inr ?_⟩
      rcases hplace with ⟨rfl, rfl⟩ | hplace
      · rw [FileTree.enterAll, Option.some.injEq, Prod.mk.injEq] at henter
        rw [← henter.1]
        exact hd
      · exact hplace
    · simp at henter

/-! ## Changes -/

theorem of_target {p : Path} {way : List String} {last : String} (htarget : target p = some (way, last)) :
    (∀ piece ∈ way, '/' ∉ piece.toList ∧ '\x00' ∉ piece.toList) ∧ IsEntryName last := by
  unfold target at htarget
  simp only at htarget
  split at htarget
  · simp at htarget
  · next found hlast =>
    split at htarget
    · simp at htarget
    · next hok =>
      obtain ⟨rfl, rfl⟩ := Prod.mk.inj (Option.some.inj htarget)
      simp only [Bool.or_eq_true, decide_eq_true_eq, Bool.not_eq_true', not_or, Bool.not_eq_true,
        Bool.not_eq_false] at hok
      obtain ⟨⟨hnul, -⟩, hname⟩ := hok
      have hplain : ∀ piece ∈ Path.meaningful p.segments,
          '/' ∉ piece.toList ∧ '\x00' ∉ piece.toList := by
        intro piece hpiece
        obtain ⟨hslash, hchars⟩ := Path.of_mem_segments (List.mem_filter.1 hpiece).1
        refine ⟨hslash, fun hmem => ?_⟩
        rw [Path.hasNul, List.contains_eq_mem, decide_eq_false_iff_not] at hnul
        exact hnul (hchars _ hmem)
      have hmem := List.mem_of_getLast? hlast
      refine ⟨fun piece hpiece => hplain piece (List.dropLast_subset _ hpiece), ?_⟩
      have hmeaning := (List.mem_filter.1 hmem).2
      simp only [isName, Bool.and_eq_true, Bool.not_eq_true', beq_eq_false_iff_ne,
        decide_eq_true_eq] at hmeaning hname
      exact ⟨hmeaning.1, hmeaning.2, hname.1, hname.2, (hplain _ hmem).1, (hplain _ hmem).2⟩

namespace WellFormed

theorem clear (ht : t.WellFormed) (hne : location ≠ []) : (t.clear location).WellFormed where
  names := by
    intro there entry hat
    rw [at?_clear hne] at hat
    split at hat
    · simp at hat
    · exact ht.names there entry hat
  home := ht.home
  standing := ht.standing.clear hne

theorem standing_start (ht : t.WellFormed) (p : Path) : t.Standing (start p t.workingDirectory) := by
  rcases start_eq p t.workingDirectory with heq | heq <;> rw [heq]
  · exact t.standing_root
  · exact ht.standing

theorem place (ht : t.WellFormed) (p : Path) (entry : Entry) : (t.place p entry).WellFormed := by
  unfold FileTree.place
  split
  · exact ht
  · next way last htarget =>
    obtain ⟨hway, hlast⟩ := of_target htarget
    split
    · exact ht
    · next t' here henter =>
      obtain ⟨hentered, hplace⟩ := ht.enterAll (ht.standing_start p) hway henter
      have hne : here ++ [last] ≠ [] := by simp
      have ht' := hentered.form
      -- the working directory may be gone, and then the entry is put below nothing
      have hwhere : here = t'.workingDirectory ∨ t'.at? here = some .directory := by
        rcases hplace with ⟨-, rfl⟩ | hd
        · rcases start_eq p t.workingDirectory with heq | heq
          · rw [heq]
            exact .inr rfl
          · exact .inl (heq.trans hentered.sameHome.symm)
        · exact .inr hd
      change ((t'.clear (here ++ [last])).withEntry (here ++ [last]) entry).WellFormed
      refine ⟨fun there found hat => ?_, ht'.home, ?_⟩
      · rw [at?_withEntry hne] at hat
        split at hat
        · next heq =>
          subst heq
          intro name hname
          rcases List.mem_append.1 hname with hname | hname
          · rcases hwhere with heq | hd
            · exact ht'.home name (heq ▸ hname)
            · exact ht'.names here _ hd name hname
          · rw [List.mem_singleton.1 hname]
            exact hlast
        · exact (ht'.clear hne).names there found hat
      · refine ht'.standing.replace hne fun hsame => ?_
        rcases hwhere with heq | hd
        · simp [heq] at hsame
        · exact (hentered.standing hd).child hd last

theorem location_ne_nil {p : Path} (h : t.location? p = some location) : location ≠ [] := by
  unfold location? at h
  split at h
  · simp at h
  · split at h
    · rw [← Option.some.inj h]
      simp
    · simp at h

theorem write (ht : t.WellFormed) (p : Path) (content : Content) : (t.write p content).WellFormed := by
  have hfresh : WellFormed { t with fresh := t.fresh + 1 } := ⟨ht.names, ht.home, ht.standing⟩
  exact hfresh.place p _

theorem apply (ht : t.WellFormed) (change : FileChange) : (t.apply change).WellFormed := by
  cases change with
  | write p content => exact ht.write p content
  | makeDirectory p =>
    simp only [FileTree.apply, makeDirectory]
    split
    · exact ht
    · exact ht.place p _
  | makeLink p goal =>
    simp only [FileTree.apply, makeLink]
    split
    · exact ht
    · exact ht.place p _
  | makeAlias p old =>
    simp only [FileTree.apply, makeAlias]
    split
    · exact ht
    · exact ht.place p _
    · exact ht
  | copy p old =>
    simp only [FileTree.apply, copy]
    split
    · exact ht.write p _
    · exact ht
  | remove p =>
    simp only [FileTree.apply, remove]
    split
    · next h => exact ht.clear (location_ne_nil h)
    · exact ht

end WellFormed

/-! ## Trees to start from -/

theorem find?_of_same {entries : Table (List String) Entry} (hsame : ∀ e ∈ entries, e.2 = entry)
    (location : List String) :
    find? entries location = if location ∈ keys entries then some entry else none := by
  induction entries with
  | nil => rfl
  | cons e rest ih =>
    obtain ⟨k, v⟩ := e
    have hv : v = entry := hsame (k, v) (by simp)
    have hrest := ih fun e he => hsame e (List.mem_cons_of_mem _ he)
    have hmem : location ∈ keys ((k, v) :: rest) ↔ location = k ∨ location ∈ keys rest :=
      List.mem_cons
    rw [if_congr hmem rfl rfl]
    by_cases hk : k = location
    · simp [find?, hk, hv]
    · simp [find?, hk, hrest, Ne.symm hk]

/-- A new tree has the directories on the way to its working directory. -/
theorem at?_withDirectory (names location : List String) :
    (withDirectory names).at? location = if location <+: names then some .directory else none := by
  by_cases hroot : location = []
  · simp [hroot]
  · have hsame : ∀ e ∈ (withDirectory names).entries, e.2 = .directory := by
      intro e he
      obtain ⟨n, -, rfl⟩ := List.mem_map.1 he
      rfl
    have hkeys : location ∈ keys (withDirectory names).entries ↔ location <+: names := by
      simp only [keys, withDirectory, List.map_map, List.mem_map, List.mem_range]
      constructor
      · rintro ⟨n, -, rfl⟩
        exact List.take_prefix (n + 1) names
      · intro hpre
        have hpos : 0 < location.length := List.length_pos_iff.2 hroot
        have hle := hpre.length_le
        refine ⟨location.length - 1, by omega, ?_⟩
        rw [Function.comp_apply, Nat.sub_add_cancel hpos]
        exact (List.prefix_iff_eq_take.1 hpre).symm
    rw [at?, if_neg (by simpa using hroot), find?_of_same hsame, if_congr hkeys rfl rfl]

theorem wellFormed_withDirectory {names : List String} (hnames : ∀ name ∈ names, IsEntryName name) :
    (withDirectory names).WellFormed where
  names := by
    intro location entry hat name hname
    rw [at?_withDirectory] at hat
    split at hat
    · next hpre => exact hnames name (hpre.subset hname)
    · simp at hat
  home := hnames
  standing := by
    intro _ above hpre _
    exact (at?_withDirectory names above).trans (if_pos hpre)

/-! ## Canonical paths -/

theorem canonical_cases {p k : Path} (hk : t.canonical? p = some k) :
    ∃ location entry, t.resolve p = .ok (location, entry) ∧ k = Path.absolute location ∧
      (Path.absolute location).text.utf8ByteSize ≤ pathLimit := by
  unfold canonical? at hk
  split at hk
  · next location entry hresolve =>
    simp only at hk
    split at hk
    · simp at hk
    · next hshort =>
      exact ⟨location, entry, hresolve, (Option.some.inj hk).symm, Nat.not_lt.1 hshort⟩
  · simp at hk

theorem WellFormed.resolve_canonical (ht : t.WellFormed) {p k : Path} (hk : t.canonical? p = some k) :
    t.resolve k = t.resolve p := by
  obtain ⟨location, entry, hresolve, rfl, hshort⟩ := canonical_cases hk
  have hat := (walk_of_resolve hresolve).2
  have hreached := reached_of_resolve ht.standing hresolve
  rw [hresolve, resolve_absolute (ht.names location entry hat) hreached hat hshort]

theorem exists_of_canonical {p k : Path} (hk : t.canonical? p = some k) : t.exists? p = true := by
  obtain ⟨location, entry, hresolve, -, -⟩ := canonical_cases hk
  rw [exists?, hresolve]
  rfl

theorem WellFormed.canonical_canonical (ht : t.WellFormed) {p k : Path}
    (hk : t.canonical? p = some k) : t.canonical? k = some k := by
  rw [← hk]
  simp only [canonical?, ht.resolve_canonical hk]

theorem WellFormed.file_canonical (ht : t.WellFormed) {p k : Path} (hk : t.canonical? p = some k) :
    t.file? k = t.file? p := by
  simp only [file?, ht.resolve_canonical hk]

end PluginHost.FileTree
