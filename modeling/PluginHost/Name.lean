import PluginHost.Text.Blank

/-!
# Names

Plugins and interfaces are known by names. A name may be written with blanks anywhere and with or
without the leading `::`; all its spellings have one canonical form, and every look-up goes
through it.

* `Name.canonical`: the canonical form of a text.
* `Name.IsCanonical`: what the canonical forms are, said on their own.
* `Name.Normalized`: the canonical form together with whether the text already was it.
* `Name.normalize`: the canonical form of a string.
-/

namespace PluginHost.Name

set_option autoImplicit false

open PluginHost.Text (isBlank)

/-! ## The canonical form -/

def root : List Char := [':', ':']

/-- The text without blanks, with `::` in front unless it is there already. -/
def canonical (cs : List Char) : List Char :=
  let compact := cs.filter fun c => !isBlank c
  if root.isPrefixOf compact then compact else root ++ compact

/-- A text is canonical when it starts with `::` and holds no blank. -/
def IsCanonical (cs : List Char) : Prop :=
  root.isPrefixOf cs = true ∧ ∀ c ∈ cs, isBlank c = false

def isCanonical (cs : List Char) : Bool :=
  root.isPrefixOf cs && cs.all fun c => !isBlank c

theorem isCanonical_iff (cs : List Char) : isCanonical cs = true ↔ IsCanonical cs := by
  simp [isCanonical, IsCanonical]

instance (cs : List Char) : Decidable (IsCanonical cs) :=
  decidable_of_iff _ (isCanonical_iff cs)

/-! ## Normalizing a string -/

/-- A name in canonical form, with whether the text it came from was reused as it stood. -/
structure Normalized where
  text : String
  borrowed : Bool
  deriving Repr, DecidableEq

/-- The canonical form of `s`; a text that already is canonical is reused. -/
def normalized (s : String) : Normalized :=
  if isCanonical s.toList then ⟨s, true⟩ else ⟨String.ofList (canonical s.toList), false⟩

def normalize (s : String) : String := (normalized s).text

end PluginHost.Name
