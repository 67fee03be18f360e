import PluginHost.Handle

/-!
# Shared capabilities

A shared capability holds the instance that its capability belongs to, apart from any handle.

* `Shared`: the capability and its owner.
* `Shared.same`: whether two are the same capability of the same instance.
-/

namespace PluginHost

set_option autoImplicit false

open PluginHost.Text

/-- A capability for an interface together with the instance it belongs to. -/
structure Shared where
  owner : Instance
  pointer : Pointer
  interface : Interface
  deriving Repr, DecidableEq

namespace Shared

def plugin (s : Shared) : String := s.owner.info.name

def handle (s : Shared) : Handle := .of s.owner

/-- Whether two shared capabilities of one interface are in the same place. -/
def same (a b : Shared) : Bool := a.pointer == b.pointer

def debug (s : Shared) : String :=
  "SharedCapability \x7b plugin: " ++ Quoted.quote s.plugin ++ ", interface: " ++
    Quoted.quote s.interface.name ++ " \x7d"

end Shared

end PluginHost
