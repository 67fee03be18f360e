import PluginHost.Config
import PluginHost.Handle

/-!
# Loaders

A loader keeps an index of plugins by their canonical names and a table of libraries by their canonical
paths. Registering a library puts its plugins into both. Instances refer to their libraries themselves,
so that nothing a loader does takes a library away from them.

* `Loader`: the index and the table.
* `Loader.judge`, `Loader.accepted`: the policy for names that are taken.
* `Loader.register`: the plugins of an opened library.
* `Loader.instantiate`: a handle for a new instance.
-/

namespace PluginHost

set_option autoImplicit false

/-! ## The type -/

/-- A known plugin and the library it came with. -/
structure IndexEntry where
  info : PluginInfo
  library : Library
  deriving Repr, DecidableEq

structure Loader where
  config : Config
  libraries : Table Path Library
  index : Table String IndexEntry
  deriving Repr

namespace Loader

def withConfig (config : Config) : Loader := ⟨config, [], []⟩

/-! ## Registration -/

/-- What the policy says to a plugin of the library at `key`, given the plugins known so far: whether it
is accepted, and what is said about it. A name that is free or belongs to the same library is always
accepted. -/
def judge (L : Loader) (key : Path) (info : PluginInfo) : Bool × Option Notice :=
  match L.index.find? info.name with
  | none => (true, none)
  | some known =>
    if known.library.path == key then (true, none)
    else
      match L.config.duplicatePolicy with
      | .overwrite => (true, some (.replaces info.name key known.library.path))
      | .reject => (false, some (.refused info.name key known.library.path))

def accepts (L : Loader) (key : Path) (info : PluginInfo) : Bool := (L.judge key info).1

/-- The accepted ones of some plugins, all judged against the index as it is. -/
def accepted (L : Loader) (key : Path) (infos : List PluginInfo) : List PluginInfo :=
  (infos.map PluginInfo.normalized).filter (L.accepts key)

def verdicts (L : Loader) (key : Path) (infos : List PluginInfo) : List Notice :=
  (infos.map PluginInfo.normalized).filterMap fun info => (L.judge key info).2

def releaseEntry (h : Host) (e : IndexEntry) : Host := h.releaseLibrary e.library

/-- Puts a plugin into the index, in place of one of the same name. -/
def enter (library : Library) (L : Loader) (h : Host) (info : PluginInfo) : Loader × Host :=
  let retained := h.retainLibrary library
  let released :=
    match L.index.find? info.name with
    | some known => releaseEntry retained known
    | none => retained
  ({ L with index := L.index.put info.name ⟨info, library⟩ }, released)

def enterAll (library : Library) (L : Loader) (h : Host) (infos : List PluginInfo) :
    Loader × Host :=
  infos.foldl (fun state info => enter library state.1 state.2 info) (L, h)

/-- Puts a library into the table, in place of one with the same path. -/
def enlist (library : Library) (L : Loader) (h : Host) : Loader × Host :=
  ({ L with libraries := L.libraries.put library.path library },
    match L.libraries.find? library.path with
    | some old => h.releaseLibrary old
    | none => h)

/-- Registers the plugins of an opened library under `key` and answers their names. When none is
accepted the library is closed again. -/
def register (L : Loader) (h : Host) (key : Path) (origin : Origin) (infos : List PluginInfo) :
    List String × Loader × Host :=
  let judged := (L.verdicts key infos).foldl Host.note h
  let chosen := L.accepted key infos
  if chosen.isEmpty then ([], L, judged.closeMapping origin.mapping)
  else
    let names := Ordered.ofList (chosen.map PluginInfo.name)
    let opened := judged.newLibrary key names origin
    let entered := enterAll opened.1 L opened.2 chosen
    let enlisted := enlist opened.1 entered.1 entered.2
    (names, enlisted.1, enlisted.2)

/-! ## Keys -/

/-- The key of a library: its canonical path, or the path itself when it leads nowhere. -/
def libraryKey (files : FileTree) (p : Path) : Path := (files.canonical? p).getD p

/-! ## Instances -/

/-- A handle for a new instance of a plugin; it is empty when the plugin is not known or its factory
makes nothing. -/
def instantiate (L : Loader) (h : Host) (plugin : String) : Handle × Host :=
  match L.index.find? (Name.normalize plugin) with
  | some e =>
    let made := h.instantiate e.info e.library
    (⟨made.1⟩, made.2)
  | none => (.empty, h.note (.pluginUnknown (Name.normalize plugin)))

end Loader

end PluginHost
