/-!
# The binary interface

What a plugin library and a host agree on: the versions of the interface, the sizes of the
descriptors, the exported symbols, and the form of a name.

* `Abi.currentVersion`, `Abi.fillVersion`, `Abi.returnVersion`: the three versions.
* `Abi.descriptorSize`, `Abi.legacySize`: the two descriptor sizes.
* `Abi.terminated?`: the text of a name that must end with its only NUL octet.
-/

namespace PluginHost.Abi

set_option autoImplicit false

/-! ## Versions and sizes -/

/-- Several descriptors, given out one by one. -/
def currentVersion : Int := 3

/-- One legacy descriptor, filled in on request. -/
def fillVersion : Int := 2

/-- One legacy descriptor, returned by value. -/
def returnVersion : Int := 1

/-- The size of a descriptor of the current version: five words of eight octets. -/
def descriptorSize : Nat := 40

/-- The size of a legacy descriptor: three words of eight octets. -/
def legacySize : Nat := 24

/-! ## Symbols -/

def versionSymbol : String := "DYNAPLUG_PLUGIN_API_VERSION"

def sizeSymbol : String := "DYNAPLUG_PLUGIN_INFO_SIZE"

def singleSymbol : String := "dynaplug_single_plugin_info"

def multiSymbol : String := "dynaplug_multi_plugin_info"

/-- A symbol as it is looked up, with the NUL octet at its end. -/
def lookupName (symbol : String) : String := symbol ++ "\x00"

/-! ## Names -/

inductive NameError where
  | notTerminated
  deriving Repr, DecidableEq

def NameError.message : NameError → String
  | .notTerminated => "plugin ABI names must end with a single NUL byte"

/-- The octets of a name before the NUL octet that must end it and stand nowhere else. -/
def terminated? (bytes : List UInt8) : Except NameError (List UInt8) :=
  if bytes.getLast? = some 0 ∧ 0 ∉ bytes.dropLast then .ok bytes.dropLast
  else .error .notTerminated

example : terminated? [65, 0] = .ok [65] := by rfl

example : terminated? [65, 0, 0] = .error .notTerminated := by rfl

end PluginHost.Abi
