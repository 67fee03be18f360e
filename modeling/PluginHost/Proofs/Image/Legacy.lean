import PluginHost.Instance
import PluginHost.Proofs.Image.Offers

/-!
# Descriptors of older versions

A library of version 2 fills in its one descriptor when it is asked to, and one of version 1 returns it. What
a host makes of the descriptor is the same for both: a plugin with at most one interface, which is the
instance itself, and without a deleter.

* `Exports.GivesOut`: a library gives out a descriptor in one of the two shapes.
* `LegacyDescriptor.plugin?`: the plugin that a host keeps of it.
* `Exports.GivesOut.negotiate_snd`: the outcome of reading such a library.
* `LegacyDescriptor.find?_of_plugin`: what the instances of the plugin provide.
-/

namespace PluginHost

set_option autoImplicit false

/-! ## Two shapes -/

/-- The version that says in which shape the descriptor function is called. -/
def LegacyShape.version : LegacyShape → Int
  | .fills => Abi.fillVersion
  | .returns => Abi.returnVersion

def DescribeLegacy.answer (s : DescribeLegacy) : LegacyShape → Option LegacyDescriptor
  | .fills => s.fill Abi.legacySize
  | .returns => some s.value

/-- The library is of the version for the shape, and its function answers the descriptor when it is called
in this shape. -/
structure Exports.GivesOut (e : Exports) (shape : LegacyShape) (d : LegacyDescriptor) : Prop where
  version : e.version = some shape.version
  infoSize : e.infoSize = some Abi.legacySize
  single : ∃ s, e.single = some s ∧ s.answer shape = some d

theorem Image.givesOut_legacyPlugin (id scope typeName : String) (shape : LegacyShape) :
    (Image.legacyPlugin id scope typeName shape.version).exports.GivesOut shape
      ⟨some (Text.Utf8.encode (scope ++ "::" ++ typeName)), some (Text.Utf8.encode Catalog.nameBase.name),
        some ⟨Export.rowTag id 0, .capability Catalog.nameBase, .named typeName⟩⟩ where
  version := rfl
  infoSize := rfl
  single := by
    refine ⟨_, rfl, ?_⟩
    cases shape <;> rfl

/-! ## What a host keeps -/

namespace LegacyDescriptor

/-- The canonical name of the one interface; there is none when its name is null or empty. -/
def interfaceKey (d : LegacyDescriptor) : Option String :=
  (PluginInfo.readName d.interface).map Name.normalize

/-- The plugin of a descriptor, with its names in canonical spelling; there is none when the name is null or
empty or the factory is missing. -/
def plugin? (d : LegacyDescriptor) : Option PluginInfo :=
  (PluginInfo.readName d.name).bind fun name => d.factory.map fun factory =>
    ⟨Name.normalize name, d.interfaceKey.toList.map fun key => (key, .identity), factory, .leak⟩

/-- What an instance provides under a name: itself under every spelling of the one interface. -/
def place (d : LegacyDescriptor) (id : Nat) (name : String) : Option Pointer :=
  if d.interfaceKey = some (Name.normalize name) then some (.object id) else none

variable {d : LegacyDescriptor} {info : PluginInfo}

theorem isSome_plugin?_iff : d.plugin?.isSome = true ↔
    (∃ b bytes, d.name = some (b :: bytes)) ∧ ∃ factory, d.factory = some factory := by
  obtain ⟨name, interface, factory⟩ := d
  rcases name with - | - | ⟨b, bytes⟩ <;> rcases factory with - | factory <;>
    simp [plugin?, PluginInfo.readName]

theorem map_normalized_ofLegacy (d : LegacyDescriptor) :
    (PluginInfo.ofLegacy d).2.map PluginInfo.normalized = d.plugin? := by
  obtain ⟨name, interface, factory⟩ := d
  simp only [PluginInfo.ofLegacy, plugin?, interfaceKey]
  cases PluginInfo.readName name with
  | none => rfl
  | some name =>
    cases factory with
    | none => rfl
    | some factory => cases PluginInfo.readName interface <;> rfl

theorem eq_of_plugin (h : d.plugin? = some info) :
    info.interfaces = d.interfaceKey.toList.map (fun key => (key, .identity)) ∧ info.deleter = .leak := by
  obtain ⟨name, -, hfactory⟩ := Option.bind_eq_some_iff.1 h
  obtain ⟨factory, -, rfl⟩ := Option.map_eq_some_iff.1 hfactory
  exact ⟨rfl, rfl⟩

theorem interfaceNames_of_plugin (h : d.plugin? = some info) :
    info.interfaceNames = d.interfaceKey.toList := by
  rw [PluginInfo.interfaceNames, (eq_of_plugin h).1, List.map_map]
  exact List.map_id _

/-- An instance of the plugin provides itself for the one interface, and nothing else. -/
theorem find?_of_plugin {x : Instance} (h : d.plugin? = some x.info) (name : String) :
    x.find? name = d.place x.id name := by
  rw [Instance.find?, PluginInfo.caster, (eq_of_plugin h).1, place]
  cases d.interfaceKey with
  | none => rfl
  | some key =>
    by_cases hkey : key = Name.normalize name
    · simp [Ordered.find?, hkey, Instance.follow]
    · simp [Ordered.find?, hkey]

end LegacyDescriptor

/-! ## Reading a library -/

namespace Exports.GivesOut

variable {e : Exports} {shape : LegacyShape} {d : LegacyDescriptor}

/-- Whatever the shape is, the descriptor is read alike. -/
theorem negotiate_eq (h : e.GivesOut shape d) :
    negotiate e = settle shape.version (readLegacy shape d) := by
  obtain ⟨s, hs, hd⟩ := h.single
  simp only [negotiate, h.version, h.infoSize, hs, Option.isNone_some, Bool.and_false, Bool.false_eq_true,
    if_false]
  cases shape with
  | fills =>
    have hfill : s.fill Abi.legacySize = some d := hd
    simp [readVersion, LegacyShape.version, Abi.fillVersion, Abi.currentVersion, hs, hfill]
  | returns =>
    obtain rfl : s.value = d := Option.some.inj hd
    simp [readVersion, LegacyShape.version, Abi.fillVersion, Abi.currentVersion, Abi.returnVersion, hs]

/-- The library gives one plugin, or none that can be used; only the version tells the shapes apart. -/
theorem negotiate_snd (h : e.GivesOut shape d) : (negotiate e).2 =
    match (PluginInfo.ofLegacy d).2 with
    | some info => .ok ⟨shape.version, [info]⟩
    | none => .error .noDescriptors := by
  rw [h.negotiate_eq, settle, readLegacy]
  cases (PluginInfo.ofLegacy d).2 <;> rfl

/-- Two libraries that give out one descriptor give the same plugin, or the same error. -/
theorem negotiate_alike {e' : Exports} {shape' : LegacyShape} (h : e.GivesOut shape d)
    (h' : e'.GivesOut shape' d) :
    (d.plugin? = none ∧ (negotiate e).2 = .error .noDescriptors ∧
        (negotiate e').2 = .error .noDescriptors) ∨
      ∃ info, d.plugin? = some info.normalized ∧ (negotiate e).2 = .ok ⟨shape.version, [info]⟩ ∧
        (negotiate e').2 = .ok ⟨shape'.version, [info]⟩ := by
  rw [h.negotiate_snd, h'.negotiate_snd, ← d.map_normalized_ofLegacy]
  cases (PluginInfo.ofLegacy d).2 with
  | none => exact .inl ⟨rfl, rfl, rfl⟩
  | some info => exact .inr ⟨info, rfl, rfl, rfl⟩

theorem plugin_of_offers {image : Image} {info : PluginInfo} (h : image.exports.GivesOut shape d)
    (hoffers : image.Offers info) : d.plugin? = some info := by
  obtain ⟨n, hn, i, hi, rfl⟩ := hoffers
  rw [h.negotiate_snd] at hn
  rw [← d.map_normalized_ofLegacy]
  cases hread : (PluginInfo.ofLegacy d).2 with
  | none => simp [hread] at hn
  | some read =>
    simp only [hread, Except.ok.injEq] at hn
    rw [← hn, List.mem_singleton] at hi
    rw [hi, Option.map_some]

end Exports.GivesOut

end PluginHost
