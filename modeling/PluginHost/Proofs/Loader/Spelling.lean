import PluginHost.Proofs.Host.Evolution
import PluginHost.Proofs.Loader.Outcome

/-!
# Paths that open the same code

What a load does depends on the path in two ways: through the key, and through the code that opening the
path leads to. The code is that of the file, unless the text of the path is already known for a mapping of
another file.

* `Host.Stale`: a text that is known for another file.
* `Host.code_locate`: the code that a path leads to.
* `Loader.Interchangeable`: two paths that load alike.
* `Loader.interchangeable_of_code`: paths with the same key and the same code.
-/

namespace PluginHost

set_option autoImplicit false

open PluginHost.Table

/-! ## The code that a path leads to -/

namespace Host

/-- The text of the path is known for a mapping that is not of the file that the path leads to now. -/
def Stale (h : Host) (p : Path) : Prop :=
  ∃ id m, h.knownAs p.text = some (id, m) ∧ h.files.file? p ≠ some ⟨m.file, .library m.image⟩

/-- The code that opening a file leads to: its mapping, or a new one if it is a library. -/
def codeOf (h : Host) : Option File → Option (Nat × Image)
  | some ⟨file, .library image⟩ => some (((h.mappedFrom file).map code).getD (h.fresh, image))
  | _ => none

theorem code_locate {h : Host} (hs : h.Separate) {p : Path} (hslash : p.hasSlash = true)
    (hfresh : ¬ h.Stale p) : (h.locate p).map code = h.codeOf (h.files.file? p) := by
  unfold locate
  rw [if_pos hslash]
  cases hknown : h.knownAs p.text with
  | some found =>
    obtain ⟨id, m⟩ := found
    have hfile : h.files.file? p = some ⟨m.file, .library m.image⟩ :=
      not_not.1 fun hother => hfresh ⟨id, m, hknown, hother⟩
    rw [hfile, codeOf, hs.mappedFrom_eq (hs.find?_of_knownAs hknown)]
    rfl
  | none =>
    match h.files.file? p with
    | none => rfl
    | some ⟨_, .octets _⟩ => rfl
    | some ⟨file, .library image⟩ =>
      simp only [codeOf]
      cases hmapped : h.mappedFrom file with
      | none => rfl
      | some found => rfl

end Host

/-! ## Paths that load alike -/

/-- The same reason, told of another path. -/
def LoadError.withPath (q : Path) : LoadError → LoadError
  | .notFound _ => .notFound q
  | .cannotOpen _ => .cannotOpen q
  | .abi _ cause => .abi q cause

namespace Loader

/-- Loading the one path answers what loading the other answers, an error with the path of its own, and
makes the same of the loader. -/
structure Interchangeable (L : Loader) (h : Host) (p q : Path) : Prop where
  answer : (L.tryLoad h q).1 = (L.tryLoad h p).1.mapError (LoadError.withPath q)
  loader : (L.tryLoad h q).2.1 = (L.tryLoad h p).2.1

theorem interchangeable_of_code (L : Loader) {h : Host} {p q : Path} (hp : h.files.exists? p = true)
    (hq : h.files.exists? q = true) (hkey : libraryKey h.files q = libraryKey h.files p)
    (hcode : (h.locate q).map Host.code = (h.locate p).map Host.code) :
    L.Interchangeable h p q := by
  obtain ⟨hanswer, hloader⟩ := L.tryLoad_outcome hp
  obtain ⟨hanswer', hloader'⟩ := L.tryLoad_outcome hq
  constructor
  case answer =>
    rw [hanswer, hanswer', hkey, hcode]
    cases (h.locate p).map Host.code with
    | none => rfl
    | some found =>
      simp only
      cases (L.outcome _ _ _ _).1 <;> rfl
  case loader => rw [hloader, hloader', hkey, hcode]

end Loader

end PluginHost
