/-!
# Paths

A path is kept as it was written and shown that way. Two paths are the same key when they have the
same parts: repeated slashes, a slash at the end and a `.` that is not the first part of a relative
path make no difference.

* `Path.parts`: whether a path starts at the root, and its parts.
* `instBEqPath`: comparison by parts.
* `Path.segments`: the pieces between the slashes, as a walk through directories reads them.
* `Path.absolute`: the path from the root through the given names.
-/

namespace PluginHost

set_option autoImplicit false

structure Path where
  text : String
  deriving Repr, DecidableEq, Inhabited

namespace Path

/-! ## Pieces -/

/-- The pieces of a text between the slashes; there is always a first piece. -/
def split : List Char → List (List Char)
  | [] => [[]]
  | c :: rest =>
    if c = '/' then [] :: split rest
    else
      match split rest with
      | [] => [[c]]
      | piece :: more => (c :: piece) :: more

/-- The pieces between the slashes, empty ones included. -/
def segments (p : Path) : List String := (split p.text.toList).map String.ofList

def isAbsolute (p : Path) : Bool := p.text.toList.head? == some '/'

def hasSlash (p : Path) : Bool := p.text.toList.contains '/'

def hasNul (p : Path) : Bool := p.text.toList.contains '\x00'

/-! ## Comparison -/

/-- The parts of a path after the first: empty pieces and `.` say nothing. -/
def meaningful (pieces : List String) : List String :=
  pieces.filter fun piece => !(piece == "") && !(piece == ".")

/-- Whether the path starts at the root, and its parts; a relative path keeps a `.` in front. -/
def parts (p : Path) : Bool × List String :=
  if p.isAbsolute then (true, meaningful p.segments)
  else
    match p.segments with
    | "." :: rest => (false, "." :: meaningful rest)
    | pieces => (false, meaningful pieces)

/-- Two paths are the same key when their parts agree. -/
instance instBEqPath : BEq Path := ⟨fun p q => p.parts == q.parts⟩

theorem beq_iff (p q : Path) : (p == q) = true ↔ p.parts = q.parts := by
  change (p.parts == q.parts) = true ↔ _
  exact beq_iff_eq

instance : EquivBEq Path where
  rfl := by intro p; exact (beq_iff p p).2 rfl
  symm := by intro p q h; exact (beq_iff q p).2 ((beq_iff p q).1 h).symm
  trans := by
    intro p q r h k
    exact (beq_iff p r).2 (((beq_iff p q).1 h).trans ((beq_iff q r).1 k))

/-! ## Absolute paths -/

def absolute (names : List String) : Path := ⟨"/" ++ "/".intercalate names⟩

end Path

end PluginHost
