import PluginHost.Interface

/-!
# The known interfaces

The interfaces that the specimen plugins publish, and the candidate lists that hosts use with them.

* `Catalog.interfaces`: the seven interfaces.
* `Catalog.find?`: an interface by the short word for its type.
* `Catalog.candidates`: the eight candidate lists.
-/

namespace PluginHost.Catalog

set_option autoImplicit false

/-! ## Interfaces -/

def nameBase : Interface := ⟨"Name", "dynaplug_testing::interfaces::NameBase"⟩

def doubleBase : Interface := ⟨"Double", "dynaplug_testing::interfaces::DoubleBase"⟩

def intBase : Interface := ⟨"Int", "dynaplug_testing::interfaces::IntBase"⟩

/-- Changes what the three others report. -/
def setterBase : Interface := ⟨"Setter", "dynaplug_testing::interfaces::SetterBase"⟩

/-- Reports nothing of its own. -/
def someInterface : Interface := ⟨"Some", "dynaplug_testing::interfaces::SomeInterface"⟩

/-- Counts its uses; its authors wrote blanks into the name. -/
def tick : Interface := ⟨"Tick", " oracle :: Tick\t"⟩

/-- Reports the instance; its authors wrote no path. -/
def bare : Interface := ⟨"Bare", "Bare"⟩

def interfaces : List Interface :=
  [nameBase, doubleBase, intBase, setterBase, someInterface, tick, bare]

def find? (type : String) : Option Interface := interfaces.find? fun i => i.type == type

/-! ## Candidate lists -/

/-- The candidate lists in use, from the first to the eighth. -/
def candidates : List Candidates :=
  [⟨[doubleBase]⟩,
    ⟨[intBase, nameBase]⟩,
    ⟨[someInterface, intBase, setterBase]⟩,
    ⟨[tick, bare, nameBase, doubleBase]⟩,
    ⟨[nameBase, doubleBase, intBase, setterBase, someInterface]⟩,
    ⟨[bare, tick, someInterface, setterBase, intBase, doubleBase]⟩,
    ⟨[nameBase, doubleBase, intBase, setterBase, someInterface, tick, bare]⟩,
    ⟨[nameBase, doubleBase, intBase, setterBase, someInterface, nameBase, doubleBase, intBase]⟩]

end PluginHost.Catalog
