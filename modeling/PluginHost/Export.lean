import PluginHost.Descriptor
import PluginHost.Text.Utf8

/-!
# What libraries export

A library of the current version gives out the rows of a table of descriptors by index. Each answer
counts the descriptors from that index on, so zero ends the enumeration.

* `Export.fill`: the answer for an index, and the descriptor written.
* `Export.Registered`: a plugin as library authors register it.
* `Export.table`: the descriptors of registered plugins.
-/

namespace PluginHost.Export

set_option autoImplicit false

open PluginHost.Text

/-! ## Giving out descriptors -/

/-- Writes descriptor number `index` and answers how many there are from it on; writes nothing and
answers zero when there is nowhere to write, the size is not the one in use or the table ends
before the index. -/
def fill (table : List Descriptor) (writable : Bool) (index size : Nat) :
    Nat × Option Descriptor :=
  if writable && size == Abi.descriptorSize then
    match table[index]? with
    | some d => (table.length - index, some d)
    | none => (0, none)
  else (0, none)

theorem fill_past_end (table : List Descriptor) (writable : Bool) (index size : Nat)
    (h : table.length ≤ index) : fill table writable index size = (0, none) := by
  simp [fill, List.getElem?_eq_none h]

/-- An answer is zero exactly when nothing was written. -/
theorem fill_fst_eq_zero_iff (table : List Descriptor) (writable : Bool) (index size : Nat) :
    (fill table writable index size).1 = 0 ↔ (fill table writable index size).2 = none := by
  unfold fill
  split
  · split
    · next h =>
      have hlt : index < table.length := (List.getElem?_eq_some_iff.1 h).1
      simp; omega
    · simp
  · simp

/-! ## Registration -/

/-- A plugin as its authors register it: its type, its interfaces and its first values. -/
structure Registered where
  typeName : String
  interfaces : List Interface
  initial : Specimen
  deriving Repr, DecidableEq

namespace Registered

/-- The name a plugin is exported under: its type inside `scope`. -/
def name (scope : String) (r : Registered) : String := scope ++ "::" ++ r.typeName

/-- The descriptor of a registered plugin: every interface has its cast function, and the factory
makes cells that publish every interface. -/
def descriptor (scope : String) (tag : String) (r : Registered) : Descriptor where
  name := some (Utf8.encode (r.name scope))
  interfaces := some (r.interfaces.map fun i => ⟨some (Utf8.encode i.name), some i⟩)
  factory := some ⟨tag, .cell r.interfaces, r.initial⟩
  hasDeleter := true

end Registered

def rowTag (id : String) (index : Nat) : String := id ++ "." ++ toString index

def table (id scope : String) (plugins : List Registered) : List Descriptor :=
  plugins.mapIdx fun index r => r.descriptor scope (rowTag id index)

end PluginHost.Export
