import PluginHost.Export
import PluginHost.PluginInfo

/-!
# Negotiation

Before a library is used, the version and the descriptor size that it declares decide which of its
functions may be called. Only when both fit is a descriptor asked for.

* `Exports`: what a library exports, as a host sees it.
* `Describe`: a function that gives out descriptors by index and at last answers zero.
* `Describe.calls`: the enumeration, call by call.
* `negotiate`: the infos of the usable descriptors or the reason why there are none, with everything
  that happened on the way.
-/

namespace PluginHost

set_option autoImplicit false

/-! ## Exports -/

/-- The answer of a descriptor function: how many descriptors there are from the index on, and
the descriptor that was written if there are any. -/
structure Response where
  remaining : Nat
  descriptor : Descriptor
  deriving Repr, DecidableEq

/-- A function that gives out descriptors by index and answers zero at `bound` at the latest. That there is such
an index is what a library owes its host, which asks on until it is answered zero. -/
structure Describe where
  respond : (index size : Nat) → Response
  bound : Nat
  ends : (respond bound Abi.descriptorSize).remaining = 0

/-- The function of one legacy descriptor: asked to fill it in, it may refuse; called for its
value, it always gives one. A library has one such function, and which of the two it does is for the version
to say, so that both are kept for the same symbol. -/
structure DescribeLegacy where
  fill : (size : Nat) → Option LegacyDescriptor
  value : LegacyDescriptor

/-- The plugin symbols of a library, each of which may be missing. The two ways to call the function of one
legacy descriptor are there or missing together, since they are one symbol. -/
structure Exports where
  version : Option Int
  infoSize : Option Nat
  multi : Option Describe
  single : Option DescribeLegacy

/-! ## Enumeration -/

/-- The calls from `index` on: the first answer of zero is the last. -/
def callsFrom (respond : Nat → Response) : (fuel index : Nat) → List (Nat × Response)
  | 0, index => [(index, respond index)]
  | fuel + 1, index =>
    (index, respond index) ::
      if (respond index).remaining = 0 then [] else callsFrom respond fuel (index + 1)

def Describe.calls (d : Describe) : List (Nat × Response) :=
  callsFrom (fun index => d.respond index Abi.descriptorSize) d.bound 0

/-! ## Outcomes -/

inductive Probe where
  | describe (index : Nat)
  | describeLegacy (shape : LegacyShape)
  | notice (n : Notice)
  deriving Repr, DecidableEq

/-- The usable descriptors of a library and the version it was built for. -/
structure Negotiated where
  version : Int
  infos : List PluginInfo
  deriving Repr, DecidableEq

def Negotiated.isOutdated (n : Negotiated) : Bool := decide (n.version < Abi.currentVersion)

def readCall (call : Nat × Response) : List Probe × Option PluginInfo :=
  if call.2.remaining = 0 then ([.describe call.1], none)
  else
    match PluginInfo.ofDescriptor call.2.descriptor with
    | (notices, some info) => (.describe call.1 :: notices.map .notice, some info)
    | (notices, none) =>
      (.describe call.1 :: notices.map .notice ++ [.notice (.skipped call.1)], none)

def readCurrent (d : Describe) : List Probe × List PluginInfo :=
  (d.calls.flatMap fun call => (readCall call).1, d.calls.filterMap fun call => (readCall call).2)

def readLegacy (shape : LegacyShape) (d : LegacyDescriptor) : List Probe × List PluginInfo :=
  (.describeLegacy shape :: (PluginInfo.ofLegacy d).1.map .notice, (PluginInfo.ofLegacy d).2.toList)

/-- The outcome for a list of usable descriptors, which must not be empty. -/
def settle (version : Int) (read : List Probe × List PluginInfo) :
    List Probe × Except AbiError Negotiated :=
  if read.2.isEmpty then (read.1, .error .noDescriptors) else (read.1, .ok ⟨version, read.2⟩)

def readVersion (e : Exports) (version : Int) (size : Nat) :
    List Probe × Except AbiError Negotiated :=
  if version = Abi.currentVersion then
    if size ≠ Abi.descriptorSize then ([], .error (.incompatible version Abi.descriptorSize size))
    else
      match e.multi with
      | none => ([], .error (.missingInfoFunction version Abi.multiSymbol))
      | some d => settle version (readCurrent d)
  else if version = Abi.fillVersion then
    if size ≠ Abi.legacySize then ([], .error (.incompatible version Abi.legacySize size))
    else
      match e.single with
      | none => ([], .error (.missingInfoFunction version Abi.singleSymbol))
      | some s =>
        match s.fill Abi.legacySize with
        | none => ([.describeLegacy .fills], .error (.legacyInfoUnavailable version))
        | some d => settle version (readLegacy .fills d)
  else if version = Abi.returnVersion then
    if size ≠ Abi.legacySize then ([], .error (.incompatible version Abi.legacySize size))
    else
      match e.single with
      | none => ([], .error (.missingInfoFunction version Abi.singleSymbol))
      | some s => settle version (readLegacy .returns s.value)
  else ([], .error (.unsupportedVersion version))

/-- Reads the usable descriptors of a library, or says why there are none. -/
def negotiate (e : Exports) : List Probe × Except AbiError Negotiated :=
  match e.version, e.infoSize with
  | some version, some size =>
    if e.multi.isNone && e.single.isNone then ([], .error .missingSymbols)
    else readVersion e version size
  | _, _ => ([], .error .missingSymbols)

end PluginHost
