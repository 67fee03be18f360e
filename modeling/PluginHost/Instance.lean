import PluginHost.Library
import PluginHost.PluginInfo

/-!
# Instances

An instance is made by the factory of a plugin. Its capabilities are found by the names of their
interfaces: the plugin info gives the caster for a name, and the caster leads to a place in memory. A
cast function owes its host that it changes nothing and answers the same for an instance each time, so
what is found follows from the instance.

* `Pointer`: such a place.
* `Instance`: an instance with the plugin and the library that it came from.
* `Instance.find?`: the capability under a name.
* `Instance.castCall`: the call into plugin code that finding it takes.
* `Instance.Publishes`: what the factory put at a place.
-/

namespace PluginHost

set_option autoImplicit false

/-! ## Places in memory -/

/-- A place that is not null; different instances share none. -/
inductive Pointer where
  | object (instanceId : Nat)
  /-- Where the instance keeps its capability for an interface. -/
  | capability (instanceId : Nat) (i : Interface)
  deriving Repr, DecidableEq

/-! ## Instances -/

/-- An instance; what it came from never changes. -/
structure Instance where
  id : Nat
  info : PluginInfo
  library : Library
  deriving Repr, DecidableEq

namespace Instance

/-- What the instance is called in the calls that reach its library. -/
def tag (x : Instance) : String := x.info.factory.tag

def published (x : Instance) : CapabilitySet Interface := x.info.factory.product.published

def follow (x : Instance) : Caster → Option Pointer
  | .identity => some (.object x.id)
  | .cast i => (x.published.find? i).map fun j => .capability x.id j

def find? (x : Instance) (interface : String) : Option Pointer :=
  (x.info.caster interface).bind x.follow

/-- The call that finding a capability takes; the identity is the work of the host. -/
def castCall (x : Instance) (interface : String) : Option Call :=
  match x.info.caster interface with
  | some (.cast i) => some (.cast x.tag x.id i)
  | _ => none

/-- The interface that the object at a place implements; an instance that is no cell implements
the one interface that it was made for. -/
def implemented (x : Instance) : Pointer → Option Interface
  | .capability _ i => some i
  | .object _ =>
    match x.info.factory.product with
    | .capability i => some i
    | _ => none

/-- The place `p` holds what the factory published for `i`. -/
def Publishes (x : Instance) (p : Pointer) (i : Interface) : Prop :=
  (p = .object x.id ∧ x.info.factory.product = .capability i) ∨
    (p = .capability x.id i ∧ x.published.find? i = some i)

end Instance

end PluginHost
