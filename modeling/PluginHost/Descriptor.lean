import PluginHost.Specimen
import PluginHost.Capability.Set
import PluginHost.Abi

/-!
# Descriptors

A library describes each plugin by a descriptor: a name, a table of interfaces, a factory and a
deleter. Any of them may be missing. Names are octets that need not be well-formed UTF-8.

* `Product`, `Factory`: what a factory makes.
* `Descriptor`: the current form. `LegacyDescriptor`: the form of versions 1 and 2, with one
  interface and no deleter.
-/

namespace PluginHost

set_option autoImplicit false

/-! ## Factories -/

inductive Product where
  | nothing
  /-- A cell that publishes these interfaces. -/
  | cell (provides : List Interface)
  /-- The bare capability for one interface. -/
  | capability (i : Interface)
  deriving Repr, DecidableEq

def Product.published : Product → CapabilitySet Interface
  | .nothing => .empty
  | .cell provides => .ofInterfaces provides
  | .capability i => .ofInterfaces [i]

/-- A factory: what its instances are called, what they are and the values they start with. -/
structure Factory where
  tag : String
  product : Product
  initial : Specimen
  deriving Repr, DecidableEq

/-! ## Descriptors -/

/-- A line of an interface table: a name and the interface that its cast function looks for. -/
structure InterfaceEntry where
  name : Option (List UInt8)
  cast : Option Interface
  deriving Repr, DecidableEq

/-- A descriptor of the current version; `interfaces` is `none` for a null table. -/
structure Descriptor where
  name : Option (List UInt8)
  interfaces : Option (List InterfaceEntry)
  factory : Option Factory
  hasDeleter : Bool
  deriving Repr, DecidableEq

namespace Descriptor

def empty : Descriptor := ⟨none, none, none, false⟩

def interfaceCount (d : Descriptor) : Nat := (d.interfaces.getD []).length

end Descriptor

/-- A descriptor of versions 1 and 2. -/
structure LegacyDescriptor where
  name : Option (List UInt8)
  interface : Option (List UInt8)
  factory : Option Factory
  deriving Repr, DecidableEq

end PluginHost
