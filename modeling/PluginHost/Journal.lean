import PluginHost.Error
import PluginHost.Interface

/-!
# The journal

Everything a host does that can be seen from outside is written down in order: the calls it makes
into plugin code, the notices it gives, and the holds it takes on mappings and returns.

* `Level`, `Notice`: what is said at which level.
* `Origin`, `Call`: which mapping is called for what.
* `Event`: a line of the journal.
-/

namespace PluginHost

set_option autoImplicit false

/-! ## Notices -/

/-- How much a notice matters; the constructors come in falling order. -/
inductive Level where
  | error
  | warn
  | info
  | debug
  deriving Repr, DecidableEq

namespace Level

def rank : Level → Nat
  | .error => 0
  | .warn => 1
  | .info => 2
  | .debug => 3

def word : Level → String
  | .error => "ERROR"
  | .warn => "WARN"
  | .info => "INFO"
  | .debug => "DEBUG"

end Level

inductive Notice where
  | loadFailed (e : LoadError)
  | pluginUnknown (plugin : String)
  | factoryFailed (plugin : String)
  | incomplete (plugin : String)
  | noFactory (plugin : String)
  | malformedEntry (plugin : String)
  | skipped (index : Nat)
  | outdated (path : Path) (version : Int)
  | replaces (plugin : String) (library other : Path)
  | refused (plugin : String) (library other : Path)
  | loaded (count : Nat) (path : Path)
  | opening (path : Path)
  | declares (path : Path) (version : Option Int) (size : Option Nat)
  | notLoaded (path : Path)
  | nothingToForget (plugin : String)
  | forgot (path : Path) (live : Nat)
  | unloading (path : Path)
  | created (plugin : String)
  | destroyed (plugin : String)
  deriving Repr, DecidableEq

namespace Notice

def level : Notice → Level
  | .loadFailed _ | .pluginUnknown _ | .factoryFailed _ => .error
  | .incomplete _ | .noFactory _ | .malformedEntry _ | .skipped _ | .outdated _ _
  | .replaces _ _ _ | .refused _ _ _ => .warn
  | .loaded _ _ => .info
  | .opening _ | .declares _ _ _ | .notLoaded _ | .nothingToForget _ | .forgot _ _
  | .unloading _ | .created _ | .destroyed _ => .debug

def declared {α : Type} [ToString α] : Option α → String
  | none => "None"
  | some a => "Some(" ++ toString a ++ ")"

def text : Notice → String
  | .loadFailed e => e.message
  | .pluginUnknown p => "Plugin [" ++ p ++ "] is not available"
  | .factoryFailed p => "Factory of plugin [" ++ p ++ "] returned no instance"
  | .incomplete p => "Plugin [" ++ p ++ "] is missing its factory or deleter"
  | .noFactory p => "Plugin [" ++ p ++ "] is missing its factory"
  | .malformedEntry p => "Plugin [" ++ p ++ "] lists a malformed interface entry"
  | .skipped i => "Skipping unusable plugin descriptor #" ++ toString i
  | .outdated p v =>
    "The library [" ++ p.text ++ "] is using version [" ++ toString v ++ "] of the plugin API. " ++
      "Its plugins have no destructor and every instance will be leaked. The latest version is [" ++
      toString Abi.currentVersion ++ "]; please rebuild the library."
  | .replaces p lib other =>
    "Plugin [" ++ p ++ "] from library [" ++ lib.text ++ "] replaces the one from library [" ++
      other.text ++ "]"
  | .refused p lib other =>
    "Plugin [" ++ p ++ "] from library [" ++ lib.text ++
      "] is ignored: already provided by library [" ++ other.text ++ "]"
  | .loaded n p => "Loaded " ++ toString n ++ " plugin(s) from library [" ++ p.text ++ "]"
  | .opening p => "Opening library [" ++ p.text ++ "]"
  | .declares p v s =>
    "Library [" ++ p.text ++ "] declares plugin API version " ++ declared v ++
      " with descriptor size " ++ declared s
  | .notLoaded p => "Library [" ++ p.text ++ "] is not loaded"
  | .nothingToForget p => "Plugin [" ++ p ++ "] is not available"
  | .forgot p n =>
    "Forgot library [" ++ p.text ++ "] (" ++ toString n ++ " live instance(s) remain)"
  | .unloading p => "Unloading library [" ++ p.text ++ "]"
  | .created p => "Created an instance of plugin [" ++ p ++ "]"
  | .destroyed p => "Destroyed an instance of plugin [" ++ p ++ "]"

/-- A notice with the word for its level in front. -/
def line (n : Notice) : String := n.level.word ++ " " ++ n.text

end Notice

/-! ## Calls into plugin code -/

/-- The mapping whose code is called, what its image is called, and whether the image reports the
calls that reach it. -/
structure Origin where
  mapping : Nat
  image : String
  reports : Bool
  deriving Repr, DecidableEq

/-- The two shapes of the descriptor function of versions 1 and 2. -/
inductive LegacyShape where
  /-- It fills in a descriptor and answers whether it did. -/
  | fills
  | returns
  deriving Repr, DecidableEq

inductive Call where
  /-- The descriptor function of the current version. -/
  | describe (index : Nat)
  /-- The descriptor function of versions 1 and 2, called in one of its shapes. -/
  | describeLegacy (shape : LegacyShape)
  /-- A factory, with the instance it made, if any. -/
  | create (tag : String) (instance? : Option Nat)
  | cast (tag : String) (instanceId : Nat) (i : Interface)
  | delete (tag : String) (instanceId : Nat)
  deriving Repr, DecidableEq

def Call.line (o : Origin) : Call → String
  | .describe index => "multi " ++ o.image ++ " " ++ toString index
  | .describeLegacy _ => "single " ++ o.image
  | .create tag _ => "new " ++ tag
  | .cast tag _ i => "cast " ++ tag ++ " " ++ i.type
  | .delete tag _ => "del " ++ tag

/-! ## Lines of the journal -/

inductive Event where
  | notice (n : Notice)
  | call (o : Origin) (c : Call)
  | held (mapping : Nat)
  | returned (mapping : Nat)
  deriving Repr, DecidableEq

namespace Event

def calls (events : List Event) : List String :=
  events.filterMap fun
    | .call o c => if o.reports then some (c.line o) else none
    | _ => none

/-- The notices that matter at least as much as `limit`, in order. -/
def notices (limit : Level) (events : List Event) : List String :=
  events.filterMap fun
    | .notice n => if n.level.rank ≤ limit.rank then some n.line else none
    | _ => none

end Event

end PluginHost
