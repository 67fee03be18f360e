import PluginHost.Proofs.FileTree.Coherent
import PluginHost.Proofs.Host.Restored
import PluginHost.Proofs.Host.Strings

/-!
# Mappings of files that stay

While the files stay as they are, every mapping holds what its file holds, and the strings that it is known
under lead to this file. So the files alone decide what opening a path leads to, whatever was opened before.

* `Host.Faithful`: mappings are those of the files.
* `Host.Faithful.evolves`: they stay so.
* `Host.Faithful.imageAt_eq`: what a path leads to.
-/

namespace PluginHost

set_option autoImplicit false

open PluginHost.Table

/-- The image in the file that a path leads to; a path without a slash leads nowhere. -/
def FileTree.imageAt (files : FileTree) (p : Path) : Option Image :=
  if p.hasSlash then
    match files.file? p with
    | some ⟨_, .library image⟩ => some image
    | _ => none
  else none

namespace Host

/-- The file of every mapping holds its image, and is where its strings lead. -/
structure Faithful (h : Host) : Prop where
  separate : h.Separate
  held : ∀ id m, h.mappings.find? id = some m → h.files.Holds ⟨m.file, .library m.image⟩
  leads : ∀ id m text, h.mappings.find? id = some m → text ∈ m.names →
    h.files.file? ⟨text⟩ = some ⟨m.file, .library m.image⟩

theorem faithful_start (files : FileTree) : (start files).Faithful where
  separate := separate_start files
  held := by intro id m hm; simp [start] at hm
  leads := by intro id m text hm; simp [start] at hm

namespace Faithful

variable {h h' : Host} {p : Path} {id : Nat} {m : Mapping}

/-- The mapping that a path leads to, new or not, is one of the files. -/
theorem of_locate (hf : h.Faithful) (hfiles : h.files.Coherent) (hp : h.locate p = some (id, m)) :
    h.files.Holds ⟨m.file, .library m.image⟩ ∧
      ∀ text ∈ m.names, h.files.file? ⟨text⟩ = some ⟨m.file, .library m.image⟩ := by
  rcases locate_cases hp with hknown | ⟨-, file, image, hfile, ⟨m₀, hmapped, rfl⟩ | ⟨-, -, rfl⟩⟩
  · have hm := hf.separate.find?_of_knownAs hknown
    exact ⟨hf.held id m hm, fun text htext => hf.leads id m text hm htext⟩
  · obtain ⟨hm₀, rfl⟩ := hf.separate.find?_of_mappedFrom hmapped
    have hheld := hf.held id m₀ hm₀
    refine ⟨hheld, fun text htext => ?_⟩
    rcases List.mem_append.1 htext with htext | htext
    · exact hf.leads id m₀ text hm₀ htext
    · -- the path leads to the file of the mapping, which holds one content
      rw [List.mem_singleton.1 htext]
      exact hfile.trans (congrArg some (hfiles.same _ _ (FileTree.holds_of_file hfile) hheld rfl))
  · refine ⟨FileTree.holds_of_file hfile, fun text htext => ?_⟩
    rw [List.mem_singleton.1 htext]
    exact hfile

theorem moves (hf : h.Faithful) (hfiles : h.files.Coherent) (hm : h.Moves h') : h'.Faithful := by
  have hseparate := hf.separate.moves hm
  cases hm with
  | aside files mappings _ =>
    refine ⟨hseparate, fun id m hm => ?_, fun id m text hm htext => ?_⟩
    · rw [files]
      exact hf.held id m (mappings ▸ hm)
    · rw [files]
      exact hf.leads id m text (mappings ▸ hm) htext
  | @held p i v hp =>
    obtain ⟨hheld, hleads⟩ := hf.of_locate hfiles hp
    have hput : ∀ id m, (h.hold i v).mappings.find? id = some m →
        m = { v with holds := v.holds + 1 } ∨ h.mappings.find? id = some m := by
      intro id m hm
      simp only [hold, log, find?_put] at hm
      split at hm
      · exact .inl (Option.some.inj hm).symm
      · exact .inr hm
    refine ⟨hseparate, fun id m hm => ?_, fun id m text hm htext => ?_⟩
    · rcases hput id m hm with rfl | hm
      · exact hheld
      · exact hf.held id m hm
    · rcases hput id m hm with rfl | hm
      · exact hleads text htext
      · exact hf.leads id m text hm htext
  | returned i =>
    have hsame : (h.closeMapping i).files = h.files := (h.evolves_closeMapping i).files
    refine ⟨hseparate, fun id m hm => ?_, fun id m text hm htext => ?_⟩ <;>
      obtain ⟨v, hv, hfile, himage, hnames⟩ := of_find?_closeMapping hm <;> rw [hsame, hfile, himage]
    · exact hf.held id v hv
    · exact hf.leads id v text hv (hnames ▸ htext)

theorem evolves (hf : h.Faithful) (hfiles : h.files.Coherent) (he : h.Evolves h') : h'.Faithful := by
  have hboth : h'.Faithful ∧ h'.files.Coherent := by
    refine he.invariant (P := fun h => h.Faithful ∧ h.files.Coherent) (fun h₁ h₂ hm hf => ?_) ⟨hf, hfiles⟩
    have hsame : h₂.files = h₁.files := (Evolves.of_moves hm).files
    exact ⟨hf.1.moves hf.2 hm, hsame ▸ hf.2⟩
  exact hboth.1

theorem imageAt_eq (hf : h.Faithful) (hfiles : h.files.Coherent) (p : Path) :
    h.imageAt p = h.files.imageAt p := by
  rw [Host.imageAt_eq, FileTree.imageAt]
  cases hknown : h.knownAs p.text with
  | some found =>
    obtain ⟨i, v⟩ := found
    have hmem : p.text ∈ v.names := by simpa using List.find?_some hknown
    have hfile : h.files.file? p = some ⟨v.file, .library v.image⟩ :=
      hf.leads i v p.text (hf.separate.find?_of_knownAs hknown) hmem
    simp [hfile]
  | none =>
    match hfile : h.files.file? p with
    | none => rfl
    | some ⟨_, .octets _⟩ => rfl
    | some ⟨file, .library image⟩ =>
      simp only [imageOf, Option.map_none, Option.none_or]
      cases hmapped : h.mappedFrom file with
      | none => rfl
      | some found =>
        obtain ⟨i, v⟩ := found
        obtain ⟨hv, rfl⟩ := hf.separate.find?_of_mappedFrom hmapped
        have hsame := hfiles.same _ _ (hf.held i v hv) (FileTree.holds_of_file hfile) rfl
        simp only [File.mk.injEq, Content.library.injEq, true_and] at hsame
        simp only [Option.map_some, Option.getD_some, hsame]

end Faithful

end Host

end PluginHost
