import PluginHost.FileTree
import PluginHost.Instance

/-!
# The host

The host is the process that plugin libraries are opened in, together with the files it sees. It keeps
three tables: the mappings in memory, the libraries that something refers to, and the instances that
something holds. Each counts its references, and goes when the last one is given back.

Opening a path is the work of the dynamic loader of the system. Two things are assumed of it beside what its
tables say. A path without a slash names no library where it searches: no directory of its search path has
such a file, and no library in memory bears that name in itself. And no path holds a token such as `$ORIGIN`,
which would be replaced before the path is opened.

* `Mapping`, `Record`, `Living`: the entries of the tables.
* `Host`: the tables, the files and the journal.
* `Host.openLibrary`, `Host.closeMapping`: holds on mappings.
* `Host.eventsSince`: what happened between two states.
-/

namespace PluginHost

set_option autoImplicit false

/-! ## The tables -/

/-- An image in memory: the file it came from, the strings it is known under, the first one first,
and the number of holds on it. -/
structure Mapping where
  file : Nat
  image : Image
  names : List String
  holds : Nat

/-- A library with the number of references to it and the number of its live instances. -/
structure Record where
  library : Library
  references : Nat
  live : Nat
  deriving Repr, DecidableEq

/-- An instance with the number of its holders and the values it has now. -/
structure Living where
  body : Instance
  uses : Nat
  state : Specimen
  deriving Repr, DecidableEq

/-- The process and the files it sees; `fresh` is the next identity and the journal has the newest
event in front. -/
structure Host where
  files : FileTree
  mappings : Table Nat Mapping
  records : Table Nat Record
  instances : Table Nat Living
  fresh : Nat
  journal : List Event

namespace Host

def start (files : FileTree) : Host where
  files := files
  mappings := []
  records := []
  instances := []
  fresh := 1
  journal := []

/-! ## The journal -/

def log (h : Host) (e : Event) : Host := { h with journal := e :: h.journal }

def note (h : Host) (n : Notice) : Host := h.log (.notice n)

def call (h : Host) (o : Origin) (c : Call) : Host := h.log (.call o c)

def eventsSince (h earlier : Host) : List Event :=
  (h.journal.take (h.journal.length - earlier.journal.length)).reverse

/-! ## Mappings -/

/-- The mapping that is known under exactly the string `text`. -/
def knownAs (h : Host) (text : String) : Option (Nat × Mapping) :=
  List.find? (fun e => e.2.names.contains text) h.mappings

def mappedFrom (h : Host) (file : Nat) : Option (Nat × Mapping) :=
  List.find? (fun e => e.2.file == file) h.mappings

/-- The mapping that opening a path leads to, with no hold for the opening yet. A string that a
mapping is known under leads there, whatever the path leads to by now; otherwise the file decides.
A path without a slash is searched for elsewhere. That the search finds nothing is an assumption, and
so is that a path is taken as it is written; see the head of this module. -/
def locate (h : Host) (p : Path) : Option (Nat × Mapping) :=
  if p.hasSlash then
    match h.knownAs p.text with
    | some found => some found
    | none =>
      match h.files.file? p with
      | some ⟨file, .library image⟩ =>
        match h.mappedFrom file with
        | some (id, m) => some (id, { m with names := m.names ++ [p.text] })
        | none => some (h.fresh, ⟨file, image, [p.text], 0⟩)
      | _ => none
  else none

/-- Takes a hold on a mapping, which is made if it is new. -/
def hold (h : Host) (id : Nat) (m : Mapping) : Host :=
  { h with
    mappings := h.mappings.put id { m with holds := m.holds + 1 }
    fresh := max h.fresh (id + 1) }.log (.held id)

/-- Opens a path and answers where its code is and what it exports. -/
def openLibrary (h : Host) (p : Path) : Option ((Nat × Image) × Host) :=
  (h.locate p).map fun found => ((found.1, found.2.image), h.hold found.1 found.2)

/-- Gives back a hold on a mapping; with the last one the mapping goes. -/
def closeMapping (h : Host) (id : Nat) : Host :=
  match h.mappings.find? id with
  | none => h
  | some m =>
    { h with
      mappings :=
        if m.holds ≤ 1 then h.mappings.erase id
        else h.mappings.put id { m with holds := m.holds - 1 } }.log (.returned id)

/-- The mappings in memory, each by the string it was first opened under. -/
def resident (h : Host) : List String := h.mappings.values.filterMap fun m => m.names.head?

end Host

end PluginHost
