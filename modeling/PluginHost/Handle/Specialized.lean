import PluginHost.Handle

/-!
# Specialized handles

A specialized handle looks for the capabilities of its candidate interfaces once, when it is bound to
an instance, and keeps them in slots. Queries for a candidate are answered from its slot; all others
go to the handle inside.

* `Specialized`: the handle with its slots.
* `Specialized.bind`: filling the slots.
* `Specialized.query`: the capability for an interface.
-/

namespace PluginHost

set_option autoImplicit false

open PluginHost.Text

/-- A handle with a slot for every candidate. -/
structure Specialized where
  handle : Handle
  candidates : Candidates
  slots : List (Option Pointer)
  deriving Repr, DecidableEq

namespace Specialized

/-! ## Binding -/

def empty (candidates : Candidates) : Specialized :=
  ⟨.empty, candidates, candidates.interfaces.map fun _ => none⟩

def resolveAll (handle : Handle) (h : Host) : List Interface → List (Option Pointer) × Host
  | [] => ([], h)
  | i :: rest =>
    let first := handle.query h i.name
    let others := resolveAll handle first.2 rest
    (first.1 :: others.1, others.2)

theorem resolveAll_fst (handle : Handle) (h : Host) (interfaces : List Interface) :
    (resolveAll handle h interfaces).1 = interfaces.map fun i => handle.find? i.name := by
  induction interfaces generalizing h with
  | nil => rfl
  | cons i rest ih => simp [resolveAll, ih, Handle.query_fst]

def bind (handle : Handle) (candidates : Candidates) (h : Host) : Specialized × Host :=
  let resolved := resolveAll handle h candidates.interfaces
  (⟨handle, candidates, resolved.1⟩, resolved.2)

/-! ## Queries -/

/-- The capability for an interface: of a candidate from its first slot, without a call. -/
def query (s : Specialized) (h : Host) (i : Interface) : Option Pointer × Host :=
  match s.candidates.position i with
  | some slot => (s.slots[slot]?.join, h)
  | none => s.handle.query h i.name

/-! ## Written form -/

def debug (s : Specialized) : String :=
  "SpecializedPluginHandle \x7b handle: " ++ s.handle.debug ++ ", candidates: [" ++
    ", ".intercalate (s.candidates.names.map Quoted.quote) ++ "] \x7d"

end Specialized

end PluginHost
