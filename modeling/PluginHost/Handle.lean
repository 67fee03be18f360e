import PluginHost.Host.Reference

/-!
# Handles

A handle holds an instance, or is empty. It is a value: holding is counted by the host, and copying a
handle or letting it go is the work of whoever keeps it.

* `Handle`: the holder of an instance, whatever its interfaces.
* `Handle.query`: the capability under a name.
* `Handle.identity`, `Handle.compare`: which handles are equal and how they are ordered.
* `MissingInterface`: why a capability that must be there is not.
-/

namespace PluginHost

set_option autoImplicit false

open PluginHost.Text

/-! ## The type -/

/-- A holder of an instance, or of none. -/
structure Handle where
  held : Option Instance
  deriving Repr, DecidableEq

inductive MissingInterface where
  | notProvided (plugin interface : String)
  | emptyHandle (interface : String)
  deriving Repr, DecidableEq

def MissingInterface.message : MissingInterface → String
  | .notProvided plugin interface =>
    "plugin [" ++ plugin ++ "] does not provide interface [" ++ interface ++ "]"
  | .emptyHandle interface => "queried interface [" ++ interface ++ "] on an empty plugin handle"

namespace Handle

def empty : Handle := ⟨none⟩

def of (x : Instance) : Handle := ⟨some x⟩

/-! ## Questions -/

def isEmpty (handle : Handle) : Bool := handle.held.isNone

def info (handle : Handle) : Option PluginInfo := handle.held.map Instance.info

def plugin (handle : Handle) : Option String := handle.info.map PluginInfo.name

def library (handle : Handle) : Option Library := handle.held.map Instance.library

/-- How many holders the instance has; an empty handle has none. -/
def uses (handle : Handle) (h : Host) : Nat :=
  match handle.held with
  | none => 0
  | some x => h.uses x

def find? (handle : Handle) (interface : String) : Option Pointer :=
  handle.held.bind fun x => x.find? interface

def query (handle : Handle) (h : Host) (interface : String) : Option Pointer × Host :=
  match handle.held with
  | none => (none, h)
  | some x => h.resolve x interface

theorem query_fst (handle : Handle) (h : Host) (interface : String) :
    (handle.query h interface).1 = handle.find? interface := by
  cases hx : handle.held with
  | none => simp [query, find?, hx]
  | some x => simp [query, find?, hx, Host.resolve]

def missing (handle : Handle) (i : Interface) : MissingInterface :=
  match handle.plugin with
  | some plugin => .notProvided plugin i.name
  | none => .emptyHandle i.name

/-! ## Holding -/

def retain (handle : Handle) (h : Host) : Host :=
  match handle.held with
  | none => h
  | some x => h.retain x

def release (handle : Handle) (h : Host) : Host :=
  match handle.held with
  | none => h
  | some x => h.release x

/-! ## Identity -/

/-- The identity of the instance; zero stands for none. -/
def identity (handle : Handle) : Nat :=
  match handle.held with
  | none => 0
  | some x => x.id

/-- Whether two handles hold the same instance, or both none. -/
def same (a b : Handle) : Bool := a.identity == b.identity

@[simp] theorem same_refl (handle : Handle) : handle.same handle = true := by simp [same]

def compare (a b : Handle) : Ordering := Ord.compare a.identity b.identity

def hash (handle : Handle) : UInt64 := Hashable.hash handle.identity

/-- The handles of a list, each of them once, in their order. -/
def distinct (handles : List Handle) : List Handle :=
  (handles.foldl (fun kept x => if kept.any (same x) then kept else kept ++ [x]) []).mergeSort
    fun a b => (compare a b).isLE

/-! ## Written form -/

/-- The plugin and the instance, whose address is cut short. -/
def debug (handle : Handle) : String :=
  match handle.plugin with
  | some plugin =>
    "PluginHandle \x7b plugin: " ++ Quoted.quote plugin ++ ", instance: " ++ PluginInfo.address ++
      " \x7d"
  | none => "PluginHandle(empty)"

end Handle

end PluginHost
