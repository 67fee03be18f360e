import PluginHost.Error
import PluginHost.Image
import PluginHost.Table
import PluginHost.Text.Utf8

/-!
# File trees

A file tree maps locations, which are lists of names from the root, to directories, files and
symbolic links. A file is one object however many locations name it; writing a location puts a new
object there.

* `FileTree.resolve`: the location and the entry that a path leads to, through links.
* `FileTree.exists?`, `FileTree.canonical?`, `FileTree.readText`: questions about a path.
* `FileTree.write`, `FileTree.makeDirectory`, `FileTree.makeLink`, `FileTree.makeAlias`,
  `FileTree.copy`, `FileTree.remove`: changes.
-/

namespace PluginHost

set_option autoImplicit false

open PluginHost.Text

/-! ## The type -/

inductive Content where
  | octets (bytes : List UInt8)
  | library (image : Image)

/-- A file; two locations with the same `id` name one file. -/
structure File where
  id : Nat
  content : Content

inductive Entry where
  | directory
  | file (f : File)
  | link (target : Path)

/-- The locations that hold something, the directory that relative paths start from, and the
identity that the next file gets. The root is always a directory. -/
structure FileTree where
  entries : Table (List String) Entry
  workingDirectory : List String
  fresh : Nat

namespace FileTree

/-- A tree with nothing but the way to its working directory. -/
def withDirectory (names : List String) : FileTree where
  entries := (List.range names.length).map fun n => (names.take (n + 1), .directory)
  workingDirectory := names
  fresh := 0

def at? (t : FileTree) (location : List String) : Option Entry :=
  if location.isEmpty then some .directory else t.entries.find? location

/-! ## Walking -/

def nameLimit : Nat := 255

def pathLimit : Nat := 4095

def linkLimit : Nat := 40

/-- Where a path starts that is read in the directory `here`. -/
def start (p : Path) (here : List String) : List String := if p.isAbsolute then [] else here

/-- Walks from `here` along the pieces of a path; `follow` says how a link is followed. -/
def walkWith (t : FileTree)
    (follow : List String → Path → List String → Except FileError (List String)) :
    List String → List String → Except FileError (List String)
  | here, [] => .ok here
  | here, piece :: rest =>
    match t.at? here with
    | some .directory =>
      if piece = "" ∨ piece = "." then walkWith t follow here rest
      else if piece = ".." then walkWith t follow here.dropLast rest
      else if nameLimit < piece.utf8ByteSize then .error .tooLong
      else
        match t.at? (here ++ [piece]) with
        | none => .error .notFound
        | some (.link target) => follow here target rest
        | some _ => walkWith t follow (here ++ [piece]) rest
    | _ => .error .notDirectory

/-- Walks from `here` along the pieces of a path, following at most `links` links. -/
def walk (t : FileTree) : (links : Nat) → List String → List String →
    Except FileError (List String)
  | 0 => walkWith t fun _ _ _ => .error .tooManyLinks
  | links + 1 => walkWith t fun here target rest =>
      walk t links (start target here) (target.segments ++ rest)

def resolve (t : FileTree) (p : Path) : Except FileError (List String × Entry) :=
  if p.hasNul then .error .interiorNul
  else if p.text.isEmpty then .error .notFound
  else if pathLimit < p.text.utf8ByteSize then .error .tooLong
  else
    match t.walk linkLimit (start p t.workingDirectory) p.segments with
    | .error e => .error e
    | .ok location =>
      match t.at? location with
      | none => .error .notFound
      | some entry => .ok (location, entry)

/-! ## Questions -/

def exists? (t : FileTree) (p : Path) : Bool := (t.resolve p).toBool

/-- The absolute path, free of links, of what a path leads to; one that is too long is none. -/
def canonical? (t : FileTree) (p : Path) : Option Path :=
  match t.resolve p with
  | .ok (location, _) =>
    let found := Path.absolute location
    if pathLimit < found.text.utf8ByteSize then none else some found
  | .error _ => none

def file? (t : FileTree) (p : Path) : Option File :=
  match t.resolve p with
  | .ok (_, .file f) => some f
  | _ => none

/-- The text of the file that a path leads to; a library is not text. -/
def readText (t : FileTree) (p : Path) : Except FileError String :=
  match t.resolve p with
  | .error e => .error e
  | .ok (_, .file ⟨_, .octets bytes⟩) =>
    match Utf8.decode? bytes with
    | some text => .ok text
    | none => .error .notText
  | .ok (_, .file ⟨_, .library _⟩) => .error .notText
  | .ok (_, _) => .error .isDirectory

/-! ## Changes -/

/-- Enters the directory `piece` of `here`, and makes it if nothing is there. -/
def enter (t : FileTree) (here : List String) (piece : String) :
    Option (FileTree × List String) :=
  match t.walk linkLimit here [piece] with
  | .ok location =>
    match t.at? location with
    | some .directory => some (t, location)
    | _ => none
  | .error .notFound =>
    match t.at? (here ++ [piece]) with
    | none => some ({ t with entries := t.entries.put (here ++ [piece]) .directory }, here ++ [piece])
    | some _ => none
  | .error _ => none

def enterAll (t : FileTree) (here : List String) : List String → Option (FileTree × List String)
  | [] => some (t, here)
  | piece :: rest =>
    match t.enter here piece with
    | some (t', here') => enterAll t' here' rest
    | none => none

def clear (t : FileTree) (location : List String) : FileTree :=
  { t with entries := t.entries.filter fun e => !(location.isPrefixOf e.1) }

def isName (name : String) : Bool :=
  !(name == "..") && decide (name.utf8ByteSize ≤ nameLimit)

/-- The pieces of a path that name something, apart from the last, and the last, which must be a name
that an entry can have. -/
def target (p : Path) : Option (List String × String) :=
  let pieces := Path.meaningful p.segments
  match pieces.getLast? with
  | none => none
  | some last =>
    if p.hasNul || decide (pathLimit < p.text.utf8ByteSize) || !isName last then none
    else some (pieces.dropLast, last)

/-- Puts an entry where a path says, in place of what is there; missing directories on the way are
made, and a path whose way is blocked changes nothing. -/
def place (t : FileTree) (p : Path) (entry : Entry) : FileTree :=
  match target p with
  | none => t
  | some (way, last) =>
    match t.enterAll (start p t.workingDirectory) way with
    | none => t
    | some (t', here) =>
      let cleared := t'.clear (here ++ [last])
      { cleared with entries := cleared.entries.put (here ++ [last]) entry }

def write (t : FileTree) (p : Path) (content : Content) : FileTree :=
  { t with fresh := t.fresh + 1 }.place p (.file ⟨t.fresh, content⟩)

/-- Makes an empty directory, unless there is a directory already. -/
def makeDirectory (t : FileTree) (p : Path) : FileTree :=
  match t.resolve p with
  | .ok (_, .directory) => t
  | _ => t.place p .directory

def makeLink (t : FileTree) (p goal : Path) : FileTree :=
  if goal.text.isEmpty || goal.hasNul || decide (pathLimit < goal.text.utf8ByteSize) then t
  else t.place p (.link goal)

/-- The location that a path names itself, with a link at its end not followed. -/
def location? (t : FileTree) (p : Path) : Option (List String) :=
  match target p with
  | none => none
  | some (way, last) =>
    match t.walk linkLimit (start p t.workingDirectory) way with
    | .ok here => some (here ++ [last])
    | .error _ => none

/-- Makes a second name for the file or link at `old`. -/
def makeAlias (t : FileTree) (p old : Path) : FileTree :=
  match (t.location? old).bind t.at? with
  | some .directory => t
  | some entry => t.place p entry
  | none => t

def copy (t : FileTree) (p old : Path) : FileTree :=
  match t.file? old with
  | some f => t.write p f.content
  | none => t

def remove (t : FileTree) (p : Path) : FileTree :=
  match t.location? p with
  | some location => t.clear location
  | none => t

end FileTree

end PluginHost
