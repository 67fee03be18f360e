import PluginHost.Descriptor
import PluginHost.Journal
import PluginHost.Ordered
import PluginHost.Text.Quoted
import PluginHost.Text.Utf8

/-!
# Plugin infos

What a host knows about one plugin, read from the descriptor that its library exports. A
descriptor without a name, a factory or a deleter is unusable; lines of its interface table without
a name or a cast function are dropped. Of lines with the same name the last one stays; of names with
the same canonical spelling the last in order stays.

* `PluginInfo`: a usable descriptor as the host keeps it.
* `PluginInfo.ofDescriptor`, `PluginInfo.ofLegacy`: reading the two kinds of descriptors.
* `PluginInfo.normalized`: all names in canonical spelling.
* `PluginInfo.display`, `PluginInfo.debug`: the two written forms.
-/

namespace PluginHost

set_option autoImplicit false

open PluginHost.Text

/-! ## The type -/

/-- How an instance is taken to the capability for an interface. -/
inductive Caster where
  /-- By a cast function of the library, which looks for this interface. -/
  | cast (i : Interface)
  /-- The instance is the capability. -/
  | identity
  deriving Repr, DecidableEq

inductive Deleter where
  | plugin
  /-- Not at all: the library has no deleter. -/
  | leak
  deriving Repr, DecidableEq

/-- What a host knows about one plugin; the interfaces are in the order of their names. -/
structure PluginInfo where
  name : String
  interfaces : List (String × Caster)
  factory : Factory
  deleter : Deleter
  deriving Repr, DecidableEq

namespace PluginInfo

/-! ## Reading descriptors -/

/-- The text of a name; a null or empty name is none. -/
def readName (name : Option (List UInt8)) : Option String :=
  match name with
  | none => none
  | some [] => none
  | some bytes => some (Utf8.decodeLossy bytes)

/-- A line of an interface table, unless its name or its cast function is missing. -/
def readEntry (e : InterfaceEntry) : Option (String × Caster) :=
  match readName e.name, e.cast with
  | some name, some i => some (name, .cast i)
  | _, _ => none

def malformedNotices (name : String) (entries : List InterfaceEntry) : List Notice :=
  entries.filterMap fun e => if (readEntry e).isSome then none else some (.malformedEntry name)

/-- Reads a descriptor of the current version, with the notices this gives rise to. -/
def ofDescriptor (d : Descriptor) : List Notice × Option PluginInfo :=
  match readName d.name with
  | none => ([], none)
  | some name =>
    match d.factory, d.hasDeleter with
    | some factory, true =>
      let entries := d.interfaces.getD []
      (malformedNotices name entries,
        some ⟨name, Ordered.putAll (entries.filterMap readEntry), factory, .plugin⟩)
    | _, _ => ([.incomplete name], none)

/-- Reads a legacy descriptor, with the notices this gives rise to. Its one interface is
reached by the identity, and its instances are never destroyed. -/
def ofLegacy (d : LegacyDescriptor) : List Notice × Option PluginInfo :=
  match readName d.name with
  | none => ([], none)
  | some name =>
    match d.factory with
    | none => ([.noFactory name], none)
    | some factory =>
      let interfaces := (readName d.interface).toList.map fun i => (i, Caster.identity)
      ([], some ⟨name, interfaces, factory, .leak⟩)

def normalized (info : PluginInfo) : PluginInfo :=
  { info with
    name := Name.normalize info.name
    interfaces := Ordered.putAll (info.interfaces.map fun e => (Name.normalize e.1, e.2)) }

/-! ## Queries -/

def interfaceNames (info : PluginInfo) : List String := info.interfaces.map Prod.fst

def interfaceCount (info : PluginInfo) : Nat := info.interfaces.length

/-- The way to the capability for an interface, whatever the spelling of its name. -/
def caster (info : PluginInfo) (interface : String) : Option Caster :=
  Ordered.find? (Name.normalize interface) info.interfaces

def implements (info : PluginInfo) (interface : String) : Bool := (info.caster interface).isSome

/-! ## Written forms -/

def display (info : PluginInfo) : String :=
  "[" ++ info.name ++ "] which implements " ++ toString info.interfaceCount ++
    (if info.interfaceCount = 1 then " interface" else " interfaces")

/-- What stands for an address in a written form. -/
def address : String := "0x"

/-- The fields of the plugin, with every address cut short. -/
def debug (info : PluginInfo) : String :=
  let line (name : String) : String := Quoted.quote name ++ ": Caster(" ++ address ++ ")"
  "PluginInfo \x7b name: " ++ Quoted.quote info.name ++ ", interfaces: \x7b" ++
    ", ".intercalate (info.interfaceNames.map line) ++ "\x7d, factory: " ++ address ++
    ", deleter: " ++ address ++ " \x7d"

end PluginInfo

end PluginHost
