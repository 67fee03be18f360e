import PluginHost.Capability.Set
import PluginHost.Table

/-!
# Instance cells

A factory hands out a cell: the plugin together with its capabilities. The cell moves to the heap
and is known to the host by its address alone; the null address is `none`.

* `CellHeap.give`: moves a cell to the heap.
* `CellHeap.cast?`: the capability that the cell at an address publishes for an interface.
* `CellHeap.destroy`: drops the capabilities of a cell and then its plugin.
-/

namespace PluginHost

set_option autoImplicit false

structure Cell (π τ : Type) where
  plugin : π
  capabilities : CapabilitySet τ

inductive Dropped (π τ : Type) where
  | capability (i : Interface) (target : τ)
  | plugin (p : π)

/-- The written form of a capability that was found, with its address cut short. -/
def capabilityDebug : String := "CapabilityRef(0x)"

/-- The cells given out and not yet destroyed. -/
structure CellHeap (π τ : Type) where
  cells : Table Nat (Cell π τ)
  fresh : Nat

namespace CellHeap

variable {π τ : Type}

def empty : CellHeap π τ := ⟨[], 0⟩

def give (heap : CellHeap π τ) (cell : Cell π τ) : Option Nat × CellHeap π τ :=
  (some heap.fresh, ⟨heap.cells.put heap.fresh cell, heap.fresh + 1⟩)

def at? (heap : CellHeap π τ) (address : Option Nat) : Option (Cell π τ) :=
  address.bind heap.cells.find?

/-- The capability for `i` of the cell at an address; null for null. -/
def cast? (heap : CellHeap π τ) (address : Option Nat) (i : Interface) : Option τ :=
  (heap.at? address).bind fun cell => cell.capabilities.find? i

/-- Destroys the cell at an address: its capabilities go first, then the plugin. -/
def destroy (heap : CellHeap π τ) (address : Option Nat) :
    List (Dropped π τ) × CellHeap π τ :=
  match address, heap.at? address with
  | some a, some cell =>
    (cell.capabilities.entries.map (fun e => .capability e.1 e.2) ++ [.plugin cell.plugin],
      ⟨heap.cells.erase a, heap.fresh⟩)
  | _, _ => ([], heap)

@[simp] theorem cast?_null (heap : CellHeap π τ) (i : Interface) : heap.cast? none i = none := rfl

@[simp] theorem destroy_null (heap : CellHeap π τ) : heap.destroy none = ([], heap) := rfl

end CellHeap

end PluginHost
