import PluginHost.Config.Document

/-!
# Where settings come from

Settings start from a document, a file or single values, and the variables of the environment go on
top.

* `Config.Source`: the start.
* `Config.effective`: the settings with the environment on top.
-/

namespace PluginHost.Config

set_option autoImplicit false

inductive Source where
  | standard
  | document (source : String)
  | file (p : Path)
  /-- Single values, the policy as a text. -/
  | values (policy : Option String) (preload : Option (List Path)) (warnOutdatedAbi : Option Bool)
  deriving Repr, DecidableEq

def Source.read (files : FileTree) : Source → Except ConfigError Config
  | .standard => .ok Config.standard
  | .document source => ofDocument source
  | .file p => ofFile files p
  | .values policy preload warn => do
    let policy ←
      match policy with
      | some s => DuplicatePolicy.parse s
      | none => .ok Config.standard.duplicatePolicy
    return ⟨policy, preload.getD Config.standard.preload, warn.getD Config.standard.warnOutdatedAbi⟩

/-- The settings of a source with the environment on top. -/
def effective (files : FileTree) (source : Source) (env : Environment) :
    Except ConfigError Config := do
  let base ← source.read files
  base.withOverrides env

end PluginHost.Config
