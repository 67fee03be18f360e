import PluginHost.Negotiation

/-!
# Images

An image is what a library file exports: for each plugin symbol its value, or that it is missing. A
library owes its host that its functions describe it alike each time they are asked, so what is read of
it follows from the image.

* `DescriptorTable`, `LegacyExport`: what stands behind the two descriptor functions.
* `Image`: a library file. `Image.exports`: what a host sees of it.
* `Image.fixtures`: the five libraries that come with the program. `Image.fileName`: the file name of a
  library.
-/

namespace PluginHost

set_option autoImplicit false

/-! ## Descriptor functions -/

/-- A table of descriptors; from index `stopAt` the function answers zero once asked for it. -/
structure DescriptorTable where
  rows : List Descriptor
  stopAt : Option Nat
  deriving Repr, DecidableEq

namespace DescriptorTable

def respond (t : DescriptorTable) (index size : Nat) : Response :=
  if t.stopAt = some index then ⟨0, .empty⟩
  else
    let answer := Export.fill t.rows true index size
    ⟨answer.1, answer.2.getD .empty⟩

theorem respond_end (t : DescriptorTable) (size : Nat) :
    (t.respond t.rows.length size).remaining = 0 := by
  unfold respond
  split
  · rfl
  · simp [Export.fill_past_end]

def describe (t : DescriptorTable) : Describe where
  respond := t.respond
  bound := t.rows.length
  ends := t.respond_end Abi.descriptorSize

end DescriptorTable

/-- A legacy descriptor, and whether the function refuses to fill it in. -/
structure LegacyExport where
  descriptor : LegacyDescriptor
  refuses : Bool
  deriving Repr, DecidableEq

def LegacyExport.describe (e : LegacyExport) : DescribeLegacy where
  fill size := if e.refuses || size != Abi.legacySize then none else some e.descriptor
  value := e.descriptor

/-! ## Images -/

structure Image where
  id : String
  /-- Whether calls into the library are reported. -/
  reports : Bool
  version : Option Int
  infoSize : Option Nat
  multi : Option DescriptorTable
  single : Option LegacyExport
  deriving Repr, DecidableEq

namespace Image

def exports (image : Image) : Exports where
  version := image.version
  infoSize := image.infoSize
  multi := image.multi.map DescriptorTable.describe
  single := image.single.map LegacyExport.describe

def ofRegistered (id scope : String) (plugins : List Export.Registered) : Image where
  id := id
  reports := false
  version := some Abi.currentVersion
  infoSize := some Abi.descriptorSize
  multi := some ⟨Export.table id scope plugins, none⟩
  single := none

def fileName (package : String) : String :=
  "lib" ++ String.ofList (package.toList.map fun c => if c = '-' then '_' else c) ++ ".so"

/-! ## The libraries that come with the program -/

open PluginHost.Text

def dummyPlugins : Image :=
  let scope := "dynaplug_dummy_plugins"
  ofRegistered scope scope
    [⟨"DummySinglePlugin", [Catalog.nameBase], .named "DummySinglePlugin"⟩,
      ⟨"DummyMultiPlugin",
        [Catalog.nameBase, Catalog.doubleBase, Catalog.intBase, Catalog.setterBase],
        ⟨"DummyMultiPlugin", 0x400921f9f01b866e, 5, 0⟩⟩]

/-- One plugin of an older version; it reports its own type as its name. -/
def legacyPlugin (id scope typeName : String) (version : Int) : Image where
  id := id
  reports := false
  version := some version
  infoSize := some Abi.legacySize
  multi := none
  single := some
    { descriptor :=
        { name := some (Utf8.encode (scope ++ "::" ++ typeName))
          interface := some (Utf8.encode Catalog.nameBase.name)
          factory :=
            some ⟨Export.rowTag id 0, .capability Catalog.nameBase, .named typeName⟩ }
      refuses := false }

/-- A library whose descriptors have one word too many and that gives out none. -/
def oversized : Image where
  id := "dynaplug_abi_mismatch"
  reports := false
  version := some Abi.currentVersion
  infoSize := some (Abi.descriptorSize + 8)
  multi := some ⟨[], none⟩
  single := none

/-- An ordinary shared library. -/
def noPlugins : Image where
  id := "dynaplug_no_plugins"
  reports := false
  version := none
  infoSize := none
  multi := none
  single := none

def fixtures : List Image :=
  [dummyPlugins,
    legacyPlugin "dynaplug_legacy_v1" "legacy_v1" "LegacyV1Plugin" Abi.returnVersion,
    legacyPlugin "dynaplug_legacy_v2" "legacy_v2" "LegacyV2Plugin" Abi.fillVersion,
    oversized,
    noPlugins]

/-- The library that comes with the program under a name. -/
def fixture? (name : String) : Option Image := fixtures.find? fun image => image.id == name

def ofFileName? (name : String) : Option Image :=
  fixtures.find? fun image => fileName image.id == name

end Image

end PluginHost
