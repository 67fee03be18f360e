import PluginHost.World

/-!
# What a program does with handles

Handles are copied, moved, bound anew, emptied and dropped; the instance behind one is used through its
capabilities.

* `World.cloneHandle`, …, `World.dropHandle`: the handles themselves.
* `World.query`, `World.require`, `World.queryNamed`: uses of a capability.
* `World.find`, `World.findTwice`: looking for one.
-/

namespace PluginHost.World

set_option autoImplicit false

/-! ## Handles -/

def newHandle (w : World) (name : String) (candidates : Option Candidates) : Handle × World :=
  (.empty, w.keep name (.empty candidates))

def cloneHandle (w : World) (name goal : String) : Option Handle × World :=
  w.onHandle name fun x w =>
    (x.handle, { w with host := x.handle.retain w.host }.keep goal x)

/-- Moves what a handle holds to another, and leaves it empty. -/
def takeHandle (w : World) (name goal : String) : Option Handle × World :=
  w.onHandle name fun x w =>
    (x.handle, { w with handles := w.handles.put name x.emptied }.keep goal x)

/-- Binds a specialized handle to what a handle holds. -/
def specialize (w : World) (name goal : String) (candidates : Candidates) : Option Handle × World :=
  w.onHandle name fun x w =>
    let bound := Specialized.bind x.handle candidates (x.handle.retain w.host)
    (x.handle, { w with host := bound.2 }.keep goal (.specialized bound.1))

/-- Turns a handle into a generic one under another name. -/
def generalize (w : World) (name goal : String) : Option Handle × World :=
  w.onHandle name fun x w =>
    (x.handle, { w with handles := w.handles.erase name }.keep goal (.generic x.handle))

def resetHandle (w : World) (name : String) : Option Bool × World :=
  w.onHandle name fun x w =>
    (true, { w with host := x.handle.release w.host, handles := w.handles.put name x.emptied })

def dropHandle (w : World) (name : String) : Bool × World :=
  match w.handles.find? name with
  | none => (false, w)
  | some x =>
    (true, { w with host := x.handle.release w.host, handles := w.handles.erase name })

/-! ## Capabilities -/

/-- Uses a capability of what a handle holds, if it was found. -/
def useFound (handle : Handle) (found : Option Pointer × Host) (arg : Argument) :
    Option Reply × Host :=
  match handle.held, found.1 with
  | some x, some p =>
    let outcome := found.2.use x p arg
    (some outcome.1, outcome.2)
  | _, _ => (none, found.2)

def query (w : World) (name : String) (i : Interface) (arg : Argument) :
    Option (Option Reply) × World :=
  w.onHandle name fun x w =>
    let outcome := useFound x.handle (x.query w.host i) arg
    (outcome.1, { w with host := outcome.2 })

def require (w : World) (name : String) (i : Interface) (arg : Argument) :
    Option (Except MissingInterface Reply) × World :=
  w.onHandle name fun x w =>
    let outcome := useFound x.handle (x.query w.host i) arg
    (match outcome.1 with
      | some reply => .ok reply
      | none => .error (x.handle.missing i),
      { w with host := outcome.2 })

def queryNamed (w : World) (name interface : String) (arg : Argument) :
    Option (Option Reply) × World :=
  w.onHandle name fun x w =>
    let outcome := useFound x.handle (x.handle.query w.host interface) arg
    (outcome.1, { w with host := outcome.2 })

def find (w : World) (name interface : String) : Option (Option Pointer) × World :=
  w.onHandle name fun x w =>
    let found := x.handle.query w.host interface
    (found.1, { w with host := found.2 })

/-- Looks for the capability for an interface in the way of a handle and then in the way of the generic
handle inside. -/
def findTwice (w : World) (name : String) (i : Interface) :
    Option (Option Pointer × Option Pointer) × World :=
  w.onHandle name fun x w =>
    let own := x.query w.host i
    let inner := x.handle.query own.2 i.name
    ((own.1, inner.1), { w with host := inner.2 })

end PluginHost.World
