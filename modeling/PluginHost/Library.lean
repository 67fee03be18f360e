import PluginHost.Journal
import PluginHost.Name

/-!
# Libraries

A library is what a loader remembers of a file it opened: the path it is known by, the plugins it was
registered with and the mapping its code is in. It never changes; a file that is opened again gives
another library.

* `Library`: the record.
* `Library.provides`: whether a plugin was registered with it, in any spelling.
-/

namespace PluginHost

set_option autoImplicit false

/-- A library as it was registered; the plugin names are canonical and in order. -/
structure Library where
  id : Nat
  path : Path
  plugins : List String
  origin : Origin
  deriving Repr, DecidableEq

namespace Library

/-- Whether the library was registered with a plugin, in any spelling. -/
def provides (l : Library) (plugin : String) : Bool := l.plugins.contains (Name.normalize plugin)

end Library

end PluginHost
