import PluginHost.World

/-!
# What a program does with shared capabilities

A capability that was found can be kept on its own; it then holds its instance like a handle does.

* `World.share`: keeps the capability of a handle.
* `World.callShared`, `World.cloneShared`, `World.handleOfShared`, `World.dropShared`: what is kept.
-/

namespace PluginHost.World

set_option autoImplicit false

/-! ## Shared capabilities -/

/-- Keeps the capability for an interface on its own, if there is one. -/
def share (w : World) (name : String) (i : Interface) (goal : String) :
    Option (Option Shared) × World :=
  w.onHandle name fun x w =>
    let found := x.query w.host i
    match x.handle.held, found.1 with
    | some owner, some p =>
      let s : Shared := ⟨owner, p, i⟩
      (some s, { w with host := found.2.retain owner }.keepShared goal s)
    | _, _ => (none, { w with host := found.2 })

def callShared (w : World) (name : String) (arg : Argument) : Option Reply × World :=
  match w.shares.find? name with
  | none => (none, w)
  | some s =>
    let outcome := w.host.use s.owner s.pointer arg
    (some outcome.1, { w with host := outcome.2 })

def cloneShared (w : World) (name goal : String) : Option Shared × World :=
  match w.shares.find? name with
  | none => (none, w)
  | some s => (some s, { w with host := w.host.retain s.owner }.keepShared goal s)

/-- Keeps a handle for the instance of a shared capability. -/
def handleOfShared (w : World) (name goal : String) : Option Handle × World :=
  match w.shares.find? name with
  | none => (none, w)
  | some s =>
    (some s.handle, { w with host := w.host.retain s.owner }.keep goal (.generic s.handle))

/-- Drops a shared capability; the answer is whether there was one. -/
def dropShared (w : World) (name : String) : Bool × World :=
  match w.shares.find? name with
  | none => (false, w)
  | some s =>
    (true, { w with host := w.host.release s.owner, shares := w.shares.erase name })

end PluginHost.World
