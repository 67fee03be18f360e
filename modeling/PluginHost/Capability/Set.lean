import PluginHost.Interface

/-!
# Capability sets

The capabilities of one instance: for an interface, the object that implements it. Publishing is in
order, and the first publication of an interface stays the answer.

* `CapabilitySet.provide`: publishes an object as an interface.
* `CapabilitySet.find?`: the first object published as an interface.
-/

namespace PluginHost

set_option autoImplicit false

/-- What an instance publishes, oldest first. -/
structure CapabilitySet (τ : Type) where
  entries : List (Interface × τ)
  deriving Repr

namespace CapabilitySet

variable {τ : Type}

def empty : CapabilitySet τ := ⟨[]⟩

def provide (s : CapabilitySet τ) (i : Interface) (target : τ) : CapabilitySet τ :=
  ⟨s.entries ++ [(i, target)]⟩

/-- The first object published as `i`. -/
def find? (s : CapabilitySet τ) (i : Interface) : Option τ :=
  (s.entries.find? fun e => e.1 == i).map Prod.snd

def size (s : CapabilitySet τ) : Nat := s.entries.length

def isEmpty (s : CapabilitySet τ) : Bool := s.entries.isEmpty

/-- The interfaces `is`, each published with itself as the object. -/
def ofInterfaces (is : List Interface) : CapabilitySet Interface :=
  is.foldl (fun s i => s.provide i i) empty

@[simp] theorem find?_empty (i : Interface) : (empty : CapabilitySet τ).find? i = none := rfl

end CapabilitySet

end PluginHost
