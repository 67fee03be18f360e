import PluginHost.FileTree
import PluginHost.Proofs.Path.Pieces

/-!
# Where walks end

A walk goes from directory to directory, so that above the place where it ends there are directories only,
and no link is left at its end. From the root the names of such a place lead there again.

* `FileTree.Standing`: a location that is a directory only if everything above it is one.
* `FileTree.Reached`: a location below directories that is no link.
* `FileTree.reached_of_resolve`: a path leads to such a location.
* `FileTree.resolve_absolute`: the names of such a location lead to it.
-/

namespace PluginHost.FileTree

set_option autoImplicit false

variable {t : FileTree} {location here : List String}

/-! ## Locations below directories -/

/-- Everything above the location is a directory. -/
def Grounded (t : FileTree) (location : List String) : Prop :=
  ∀ above, above <+: location → above ≠ location → t.at? above = some .directory

def Standing (t : FileTree) (location : List String) : Prop :=
  t.at? location = some .directory → t.Grounded location

/-- The location is below directories, and what is there is not a link. -/
structure Reached (t : FileTree) (location : List String) : Prop where
  grounded : t.Grounded location
  direct : ∀ goal, t.at? location ≠ some (.link goal)

@[simp] theorem at?_root (t : FileTree) : t.at? [] = some .directory := rfl

theorem grounded_root (t : FileTree) : t.Grounded [] := fun _ hpre hne =>
  absurd (List.prefix_nil.1 hpre) hne

theorem standing_root (t : FileTree) : t.Standing [] := fun _ => t.grounded_root

theorem Reached.standing (h : t.Reached location) : t.Standing location := fun _ => h.grounded

theorem Reached.of_directory (hs : t.Standing location) (hd : t.at? location = some .directory) :
    t.Reached location := ⟨hs hd, by simp [hd]⟩

theorem Grounded.at?_of_prefix (hg : t.Grounded location) (hd : t.at? location = some .directory)
    {above : List String} (hpre : above <+: location) : t.at? above = some .directory := by
  by_cases heq : above = location
  · rw [heq, hd]
  · exact hg above hpre heq

theorem Grounded.child (hg : t.Grounded here) (hd : t.at? here = some .directory) (piece : String) :
    t.Grounded (here ++ [piece]) := by
  intro above hpre hne
  rcases List.prefix_concat_iff.1 hpre with heq | hpre
  · exact absurd heq hne
  · exact hg.at?_of_prefix hd hpre

theorem Grounded.parent (hg : t.Grounded here) (hd : t.at? here = some .directory) :
    t.Reached here.dropLast := by
  have hat := hg.at?_of_prefix hd here.dropLast_prefix
  refine .of_directory (fun _ above hpre _ => ?_) hat
  exact hg.at?_of_prefix hd (hpre.trans here.dropLast_prefix)

/-! ## Where a walk ends -/

theorem reached_of_walkWith
    {follow : List String → Path → List String → Except FileError (List String)}
    (hfollow : ∀ here goal rest location, t.Reached here → follow here goal rest = .ok location →
      t.Reached location)
    {pieces : List String} (hstart : t.Standing here) (hnil : pieces = [] → t.Reached here)
    (hwalk : t.walkWith follow here pieces = .ok location) : t.Reached location := by
  -- on the pieces; the first one is only read in a directory, so from then on the place is reached
  induction pieces generalizing here with
  | nil =>
    rw [walkWith, Except.ok.injEq] at hwalk
    exact hwalk ▸ hnil rfl
  | cons piece rest ih =>
    have hstay : ∀ next, t.Reached next → t.walkWith follow next rest = .ok location →
        t.Reached location := fun next hnext hrest => ih hnext.standing (fun _ => hnext) hrest
    rw [walkWith] at hwalk
    split at hwalk
    · next hd =>
      have hhere : t.Reached here := .of_directory hstart hd
      have hg := hstart hd
      split at hwalk
      · exact hstay here hhere hwalk
      · split at hwalk
        · exact hstay _ (hg.parent hd) hwalk
        · split at hwalk
          · simp at hwalk
          · split at hwalk
            · simp at hwalk
            · exact hfollow here _ rest location hhere hwalk
            · next entry hnolink hentry =>
              refine hstay _ ⟨hg.child hd piece, fun goal hlink => ?_⟩ hwalk
              rw [hentry, Option.some.injEq] at hlink
              exact hnolink goal hlink
    · simp at hwalk

theorem reached_of_walk {links : Nat} {pieces : List String} (hstart : t.Standing here)
    (hnil : pieces = [] → t.Reached here) (hwalk : t.walk links here pieces = .ok location) :
    t.Reached location := by
  induction links generalizing here pieces location with
  | zero => exact reached_of_walkWith (by simp) hstart hnil hwalk
  | succ links ih =>
    refine reached_of_walkWith (fun here' goal rest location' hhere hfollow => ?_) hstart hnil hwalk
    refine ih ?_ (fun hnone => ?_) hfollow
    · unfold start
      split
      · exact t.standing_root
      · exact hhere.standing
    · exact absurd (List.append_eq_nil_iff.1 hnone).1 goal.segments_ne_nil

theorem walk_of_resolve {p : Path} {entry : Entry} (h : t.resolve p = .ok (location, entry)) :
    t.walk linkLimit (start p t.workingDirectory) p.segments = .ok location ∧
      t.at? location = some entry := by
  unfold resolve at h
  split at h
  · simp at h
  · split at h
    · simp at h
    · split at h
      · simp at h
      · split at h
        · simp at h
        · next found hwalk =>
          split at h
          · simp at h
          · next hat =>
            obtain ⟨rfl, rfl⟩ := Prod.mk.inj (Except.ok.inj h)
            exact ⟨hwalk, hat⟩

theorem reached_of_resolve {p : Path} {entry : Entry} (hhome : t.Standing t.workingDirectory)
    (h : t.resolve p = .ok (location, entry)) : t.Reached location := by
  have hstart : t.Standing (start p t.workingDirectory) := by
    unfold start
    split
    · exact t.standing_root
    · exact hhome
  exact reached_of_walk hstart (fun hnone => absurd hnone p.segments_ne_nil) (walk_of_resolve h).1

/-! ## Names that lead to a location -/

/-- What the name of an entry can be. -/
structure IsEntryName (name : String) : Prop where
  nonempty : name ≠ ""
  notHere : name ≠ "."
  notUp : name ≠ ".."
  short : name.utf8ByteSize ≤ nameLimit
  noSlash : '/' ∉ name.toList
  noNul : '\x00' ∉ name.toList

instance (name : String) : Decidable (IsEntryName name) :=
  decidable_of_iff (name ≠ "" ∧ name ≠ "." ∧ name ≠ ".." ∧ name.utf8ByteSize ≤ nameLimit ∧
      '/' ∉ name.toList ∧ '\x00' ∉ name.toList)
    ⟨fun ⟨nonempty, notHere, notUp, short, noSlash, noNul⟩ =>
        ⟨nonempty, notHere, notUp, short, noSlash, noNul⟩,
      fun h => ⟨h.nonempty, h.notHere, h.notUp, h.short, h.noSlash, h.noNul⟩⟩

/-- Names lead from a directory to what they name, without a link on the way. -/
theorem walkWith_names {follow : List String → Path → List String → Except FileError (List String)}
    {names : List String} (hnames : ∀ name ∈ names, IsEntryName name)
    (hr : t.Reached (here ++ names)) (hthere : (t.at? (here ++ names)).isSome) :
    t.walkWith follow here names = .ok (here ++ names) := by
  induction names generalizing here with
  | nil => rw [walkWith, List.append_nil]
  | cons name rest ih =>
    have hname := hnames name (by simp)
    have hsplit : here ++ name :: rest = here ++ [name] ++ rest := by simp
    have hd : t.at? here = some .directory :=
      hr.grounded here (List.prefix_append here _) (by simp)
    have hgo : t.walkWith follow (here ++ [name]) rest = .ok (here ++ name :: rest) := by
      rw [hsplit] at hr hthere ⊢
      exact ih (fun n hn => hnames n (List.mem_cons_of_mem name hn)) hr hthere
    have hnext : ∃ entry, t.at? (here ++ [name]) = some entry ∧ ∀ goal, entry ≠ .link goal := by
      cases rest with
      | nil =>
        obtain ⟨entry, hentry⟩ := Option.isSome_iff_exists.1 hthere
        exact ⟨entry, hentry, fun goal hlink => hr.direct goal (hlink ▸ hentry)⟩
      | cons next rest =>
        refine ⟨.directory, hr.grounded _ ?_ (by simp), by simp⟩
        rw [hsplit]
        exact List.prefix_append _ _
    obtain ⟨entry, hentry, hnolink⟩ := hnext
    rw [walkWith, hd]
    simp only [hname.nonempty, hname.notHere, hname.notUp, or_self, if_false,
      Nat.not_lt.2 hname.short, hentry]
    cases entry with
    | link goal => exact absurd rfl (hnolink goal)
    | directory => exact hgo
    | file f => exact hgo

theorem walk_absolute (hnames : ∀ name ∈ location, IsEntryName name) (hr : t.Reached location)
    (hthere : (t.at? location).isSome) (links : Nat) :
    t.walk links [] (Path.absolute location).segments = .ok location := by
  by_cases hroot : location = []
  · subst hroot
    rw [Path.segments_root]
    cases links <;> simp [walk, walkWith]
  · rw [Path.segments_absolute hroot fun name hname => (hnames name hname).noSlash]
    have hgo : ∀ follow, t.walkWith follow [] ("" :: location) = .ok location := by
      intro follow
      have hthrough : t.walkWith follow [] location = .ok location := walkWith_names hnames hr hthere
      rw [walkWith, at?_root]
      simpa using hthrough
    cases links <;> exact hgo _

theorem hasNul_absolute (hnames : ∀ name ∈ location, IsEntryName name) :
    (Path.absolute location).hasNul = false := by
  rw [Path.hasNul, List.contains_eq_mem, decide_eq_false_iff_not]
  intro hmem
  rcases Path.mem_toList_absolute hmem with hslash | ⟨name, hname, hmem⟩
  · exact absurd hslash (by decide)
  · exact (hnames name hname).noNul hmem

theorem resolve_absolute {entry : Entry} (hnames : ∀ name ∈ location, IsEntryName name)
    (hr : t.Reached location) (hat : t.at? location = some entry)
    (hshort : (Path.absolute location).text.utf8ByteSize ≤ pathLimit) :
    t.resolve (Path.absolute location) = .ok (location, entry) := by
  have hnul := hasNul_absolute hnames
  have hnonempty : (Path.absolute location).text.isEmpty = false := by
    rw [← Bool.not_eq_true, String.isEmpty_iff]
    intro hempty
    have htext := Path.toList_absolute location
    simp [hempty] at htext
  have hstart : start (Path.absolute location) t.workingDirectory = [] := by simp [start]
  have hwalk := walk_absolute hnames hr (by simp [hat]) linkLimit
  simp [resolve, hnul, hnonempty, Nat.not_lt.2 hshort, hstart, hwalk, hat]

end PluginHost.FileTree
