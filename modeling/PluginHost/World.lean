import PluginHost.Config.Source
import PluginHost.FileTree.Change
import PluginHost.Handle.Holder
import PluginHost.Handle.Shared
import PluginHost.Loader.Forgetting
import PluginHost.Loader.Loading
import PluginHost.Loader.Query

/-!
# Worlds

A world is a host together with the loaders, handles and shared capabilities that a program keeps, each
under a name. Whatever is kept under a name takes the place of what was kept there before, which is let
go afterwards.

* `World`: the state of the program.
* `World.onLoader`, `World.onHandle`: doing something with what is kept.
* `World.keep`, `World.keepShared`: keeping.
* `World.changeFiles`: changing the files.
-/

namespace PluginHost

set_option autoImplicit false

/-- A host and what a program keeps in it. -/
structure World where
  host : Host
  loaders : Table String Loader
  handles : Table String Holder
  shares : Table String Shared

namespace World

def start (files : FileTree) : World := ⟨.start files, [], [], []⟩

/-! ## Keeping -/

def onLoader {α : Type} (w : World) (loader : String) (f : Loader → Host → α × Loader × Host) :
    Option α × World :=
  match w.loaders.find? loader with
  | none => (none, w)
  | some L =>
    let done := f L w.host
    (some done.1, { w with host := done.2.2, loaders := w.loaders.put loader done.2.1 })

def keep (w : World) (name : String) (x : Holder) : World :=
  { w with
    host :=
      match w.handles.find? name with
      | some old => old.handle.release w.host
      | none => w.host
    handles := w.handles.put name x }

def keepShared (w : World) (name : String) (s : Shared) : World :=
  { w with
    host :=
      match w.shares.find? name with
      | some old => w.host.release old.owner
      | none => w.host
    shares := w.shares.put name s }

def onHandle {α : Type} (w : World) (name : String) (f : Holder → World → α × World) :
    Option α × World :=
  match w.handles.find? name with
  | none => (none, w)
  | some x =>
    let done := f x w
    (some done.1, done.2)

/-! ## Files -/

def changeFiles (w : World) (change : FileChange) : World :=
  { w with host := { w.host with files := w.host.files.apply change } }

end World

end PluginHost
