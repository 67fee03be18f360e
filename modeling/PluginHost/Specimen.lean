import PluginHost.Interface.Catalog

/-!
# Specimen plugins

Specimen plugins hold a name, a double, an integer and a counter. Using one of their capabilities
reads or changes these values.

* `Specimen`: the values.
* `Argument`: what a use may bring along.
* `Reply`: what a use answers.
* `Specimen.use`: a use of the capability for an interface.
-/

namespace PluginHost

set_option autoImplicit false

/-- The values of a specimen plugin; the double is kept as its bits. -/
structure Specimen where
  name : String
  double : UInt64
  int : Int
  ticks : Nat
  deriving Repr, DecidableEq

structure Argument where
  name : Option String
  double : Option UInt64
  int : Option Int
  deriving Repr, DecidableEq

inductive Reply where
  | text (s : String)
  | double (bits : UInt64)
  | int (n : Int)
  | nothing
  deriving Repr, DecidableEq

namespace Specimen

def named (name : String) : Specimen := ⟨name, 0, 0, 0⟩

def set (s : Specimen) (arg : Argument) : Specimen :=
  { s with
    name := arg.name.getD s.name
    double := arg.double.getD s.double
    int := arg.int.getD s.int }

/-- Uses the capability for `i` of the instance that is known as `tag`. -/
def use (s : Specimen) (tag : String) (i : Interface) (arg : Argument) : Reply × Specimen :=
  if i.type = Catalog.nameBase.type then (.text s.name, s)
  else if i.type = Catalog.doubleBase.type then (.double s.double, s)
  else if i.type = Catalog.intBase.type then (.int s.int, s)
  else if i.type = Catalog.setterBase.type then (.text "set", s.set arg)
  else if i.type = Catalog.someInterface.type then (.text "some", s)
  else if i.type = Catalog.tick.type then (.int (s.ticks + 1), { s with ticks := s.ticks + 1 })
  else if i.type = Catalog.bare.type then (.text tag, s)
  else (.nothing, s)

end Specimen

end PluginHost
