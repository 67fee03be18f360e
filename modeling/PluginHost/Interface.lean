import PluginHost.Name

/-!
# Interfaces

An interface is a type that plugins implement and hosts ask for, with the name that its authors gave
it. Libraries and hosts that were built apart agree on the name alone; inside one program the type
itself tells interfaces apart, and a type has exactly one name.

* `Interface`: the type together with its name; equal interfaces are the same type.
* `Interface.key`: the canonical spelling of the name.
* `Candidates`: the interfaces of a specialized handle, in order; one may come twice.
* `Candidates.position`: the first place of an interface in the list.
-/

namespace PluginHost

set_option autoImplicit false

/-- An interface type and the name its authors declared for it. -/
structure Interface where
  type : String
  name : String
  deriving Repr, DecidableEq

namespace Interface

def key (i : Interface) : String := Name.normalize i.name

end Interface

/-- The interfaces that a specialized handle resolves when it is bound. -/
structure Candidates where
  interfaces : List Interface
  deriving Repr, DecidableEq

namespace Candidates

def names (s : Candidates) : List String := s.interfaces.map Interface.name

/-- The first place at which a candidate is the type `i`. -/
def position (s : Candidates) (i : Interface) : Option Nat :=
  s.interfaces.findIdx? fun c => c == i

def covers (s : Candidates) (i : Interface) : Bool := (s.position i).isSome

end Candidates

end PluginHost
