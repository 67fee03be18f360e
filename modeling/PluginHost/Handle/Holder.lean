import PluginHost.Handle.Specialized

/-!
# Holders

A program keeps generic and specialized handles side by side.

* `Holder`: a handle of either form.
* `Holder.query`: the capability for an interface, in the way of the form.
* `Holder.same`, `Holder.compare`, `Holder.hash`: identity, which is that of the handle inside.
-/

namespace PluginHost

set_option autoImplicit false

inductive Holder where
  | generic (handle : Handle)
  | specialized (s : Specialized)
  deriving Repr, DecidableEq

namespace Holder

def handle : Holder → Handle
  | .generic handle => handle
  | .specialized s => s.handle

def candidates : Holder → Option Candidates
  | .generic _ => none
  | .specialized s => some s.candidates

/-- The holder that holds nothing, of the same form. -/
def emptied : Holder → Holder
  | .generic _ => .generic .empty
  | .specialized s => .specialized (.empty s.candidates)

def make (handle : Handle) (candidates : Option Candidates) (h : Host) : Holder × Host :=
  match candidates with
  | none => (.generic handle, h)
  | some c =>
    let bound := Specialized.bind handle c h
    (.specialized bound.1, bound.2)

def empty : Option Candidates → Holder
  | none => .generic .empty
  | some c => .specialized (.empty c)

def query (x : Holder) (h : Host) (i : Interface) : Option Pointer × Host :=
  match x with
  | .generic handle => handle.query h i.name
  | .specialized s => s.query h i

/-! ## Identity -/

def same (a b : Holder) : Bool := a.handle.same b.handle

def compare (a b : Holder) : Ordering := a.handle.compare b.handle

def hash (x : Holder) : UInt64 := x.handle.hash

/-! ## Written form -/

def debug : Holder → String
  | .generic handle => handle.debug
  | .specialized s => s.debug

end Holder

end PluginHost
