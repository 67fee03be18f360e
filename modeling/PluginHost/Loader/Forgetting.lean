import PluginHost.Loader

/-!
# Forgetting libraries

A library that is forgotten is no longer listed, and its plugins are no longer known. It stays in memory
for as long as one of its instances lives.

* `Loader.listedKey`: the key that a path stands for.
* `Loader.forget`, `Loader.forgetOf`: one library.
* `Loader.dispose`: all of them, with the loader.
-/

namespace PluginHost.Loader

set_option autoImplicit false

/-! ## Forgetting -/

/-- The key under which the library at `p` is listed: its canonical path now, or else the path itself,
since the file may be gone. -/
def listedKey (L : Loader) (files : FileTree) (p : Path) : Option Path :=
  if L.libraries.contains (libraryKey files p) then some (libraryKey files p)
  else if L.libraries.contains p then some p
  else none

def ownedBy (L : Loader) (key : Path) : List IndexEntry :=
  L.index.values.filter fun e => e.library.path == key

/-- Removes the library listed under `key` and every plugin of a library with that path. -/
def remove (L : Loader) (key : Path) : Loader :=
  { L with
    libraries := L.libraries.erase key
    index := L.index.filter fun e => !(e.2.library.path == key) }

/-- Forgets the library at `p` and its plugins; the answer is whether it was listed. -/
def forget (L : Loader) (h : Host) (p : Path) : Bool × Loader × Host :=
  match L.listedKey h.files p with
  | none => (false, L, h.note (.notLoaded p))
  | some key =>
    match L.libraries.find? key with
    | none => (false, L, h)
    | some library =>
      let dropped := (L.ownedBy key).foldl releaseEntry h
      let told := dropped.note (.forgot key (dropped.live library))
      (true, L.remove key, told.releaseLibrary library)

/-- The path of the library of a known plugin, in any spelling. -/
def libraryOf (L : Loader) (plugin : String) : Option Path :=
  (L.index.find? (Name.normalize plugin)).map fun e => e.library.path

/-- Forgets the library of a plugin; the answer is whether the plugin was known. -/
def forgetOf (L : Loader) (h : Host) (plugin : String) : Bool × Loader × Host :=
  match L.libraryOf plugin with
  | some path => L.forget h path
  | none => (false, L, h.note (.nothingToForget (Name.normalize plugin)))

/-- Gives back every reference of a loader that is no longer needed. -/
def dispose (L : Loader) (h : Host) : Host :=
  L.index.values.foldl releaseEntry (L.libraries.values.foldl Host.releaseLibrary h)

end PluginHost.Loader
