import Mathlib.Data.Nat.Find
import PluginHost.Proofs.Image.Enumeration
import PluginHost.Proofs.Image.Legacy
import PluginHost.Proofs.Image.Translation

/-!
# What is made of a library

The symbols of a library decide step by step whether it can be used: first whether it declares itself, then
its version, the size that it declares, the function that its version needs, and at last the descriptors that
this function gives out. The first step that fails is the error.

* `Abi.Expects`: the versions and the size of a descriptor of each.
* `Exports.Gives`: the descriptors that the function of a version gives out.
* `Exports.Verdict`: the table of outcomes. `Exports.decided`: every library has the outcome in the table.
-/

namespace PluginHost

set_option autoImplicit false

/-! ## Descriptors as they are given out -/

theorem Describe.exists_endsAt (d : Describe) : ∃ k, d.EndsAt k := by
  have hexists : ∃ k, (d.respond k Abi.descriptorSize).remaining = 0 := ⟨d.bound, d.ends⟩
  exact ⟨Nat.find hexists, Nat.find_spec hexists, fun i hi => Nat.find_min hexists hi⟩

/-- The size of a descriptor of the version, in octets. -/
inductive Abi.Expects : Int → Nat → Prop where
  | current : Expects 3 40
  | fills : Expects 2 24
  | returns : Expects 1 24

inductive RawDescriptor where
  | current (d : Descriptor)
  | legacy (d : LegacyDescriptor)

namespace RawDescriptor

/-- It has a name and a factory, and in the current form a deleter. -/
def Usable : RawDescriptor → Prop
  | .current d => d.Usable
  | .legacy d => (∃ b bytes, d.name = some (b :: bytes)) ∧ d.factory ≠ none

def info? : RawDescriptor → Option PluginInfo
  | .current d => (PluginInfo.ofDescriptor d).2
  | .legacy d => (PluginInfo.ofLegacy d).2

theorem isSome_info?_iff {raw : RawDescriptor} : raw.info?.isSome = true ↔ raw.Usable := by
  cases raw with
  | current d => exact PluginInfo.usable_iff
  | legacy d =>
    have hplugin : (PluginInfo.ofLegacy d).2.isSome = d.plugin?.isSome := by
      rw [← d.map_normalized_ofLegacy, Option.isSome_map]
    rw [info?, hplugin, LegacyDescriptor.isSome_plugin?_iff, ← Option.ne_none_iff_exists']
    rfl

theorem filterMap_info?_eq_nil_iff {raws : List RawDescriptor} :
    raws.filterMap info? = [] ↔ ∀ raw ∈ raws, ¬ raw.Usable := by
  rw [List.filterMap_eq_nil_iff]
  refine forall₂_congr fun raw _ => ?_
  rw [← isSome_info?_iff, Option.not_isSome_iff_eq_none]

end RawDescriptor

namespace Exports

/-! ## The table -/

/-- All that a host looks for first: a version, a size and one of the two functions. -/
structure Declares (e : Exports) (version : Int) (size : Nat) : Prop where
  version : e.version = some version
  infoSize : e.infoSize = some size
  function : ¬ (e.multi = none ∧ e.single = none)

/-- The library has not got the function that the version needs, whether or not it has the other one. -/
inductive Lacks (e : Exports) : Int → String → Prop where
  | multi (h : e.multi = none) : Lacks e 3 "dynaplug_multi_plugin_info"
  | fills (h : e.single = none) : Lacks e 2 "dynaplug_single_plugin_info"
  | returns (h : e.single = none) : Lacks e 1 "dynaplug_single_plugin_info"

/-- The descriptors that the function of the version gives out, in order. A function of the current version
gives one for every index before its first answer of zero. -/
inductive Gives (e : Exports) : Int → List RawDescriptor → Prop where
  | current {d : Describe} {k : Nat} (h : e.multi = some d) (hends : d.EndsAt k) :
    Gives e 3 ((List.range k).map fun i => .current (d.respond i 40).descriptor)
  | fills {s : DescribeLegacy} {d : LegacyDescriptor} (h : e.single = some s) (hfill : s.fill 24 = some d) :
    Gives e 2 [.legacy d]
  | returns {s : DescribeLegacy} (h : e.single = some s) : Gives e 1 [.legacy s.value]

/-- The outcome for a library, row by row. -/
inductive Verdict (e : Exports) : Except AbiError Negotiated → Prop where
  | missingSymbols (h : e.version = none ∨ e.infoSize = none ∨ (e.multi = none ∧ e.single = none)) :
    Verdict e (.error .missingSymbols)
  | unsupportedVersion {version : Int} {size : Nat} (h : e.Declares version size)
    (hversion : version ≠ 1 ∧ version ≠ 2 ∧ version ≠ 3) :
    Verdict e (.error (.unsupportedVersion version))
  | incompatible {version : Int} {expected found : Nat} (h : e.Declares version found)
    (hexpects : Abi.Expects version expected) (hne : found ≠ expected) :
    Verdict e (.error (.incompatible version expected found))
  | missingInfoFunction {version : Int} {size : Nat} {symbol : String} (h : e.Declares version size)
    (hexpects : Abi.Expects version size) (hlacks : e.Lacks version symbol) :
    Verdict e (.error (.missingInfoFunction version symbol))
  | legacyInfoUnavailable {s : DescribeLegacy} (h : e.Declares 2 24) (hsingle : e.single = some s)
    (hrefuses : s.fill 24 = none) :
    Verdict e (.error (.legacyInfoUnavailable 2))
  | noDescriptors {version : Int} {size : Nat} {raws : List RawDescriptor} (h : e.Declares version size)
    (hexpects : Abi.Expects version size) (hgives : e.Gives version raws)
    (hnone : ∀ raw ∈ raws, ¬ raw.Usable) :
    Verdict e (.error .noDescriptors)
  | accepted {version : Int} {size : Nat} {raws : List RawDescriptor} (h : e.Declares version size)
    (hexpects : Abi.Expects version size) (hgives : e.Gives version raws)
    (hsome : ∃ raw ∈ raws, raw.Usable) :
    Verdict e (.ok ⟨version, raws.filterMap RawDescriptor.info?⟩)

/-! ## Each row -/

variable {e : Exports} {version : Int} {size : Nat}

theorem negotiate_of_undeclared
    (h : e.version = none ∨ e.infoSize = none ∨ (e.multi = none ∧ e.single = none)) :
    negotiate e = ([], .error .missingSymbols) := by
  unfold negotiate
  rcases h with h | h | ⟨hmulti, hsingle⟩
  · rw [h]
  · rw [h]
    cases e.version <;> rfl
  · rw [hmulti, hsingle]
    cases e.version <;> cases e.infoSize <;> rfl

theorem Declares.negotiate_eq (h : e.Declares version size) : negotiate e = readVersion e version size := by
  have hfunction : (e.multi.isNone && e.single.isNone) = false := by
    refine Bool.eq_false_iff.2 fun hnone => h.function ?_
    simpa using hnone
  rw [negotiate, h.version, h.infoSize]
  simp only [hfunction, Bool.false_eq_true, if_false]

theorem readVersion_of_unsupported (h : version ≠ 1 ∧ version ≠ 2 ∧ version ≠ 3) :
    readVersion e version size = ([], .error (.unsupportedVersion version)) := by
  obtain ⟨hreturns, hfills, hcurrent⟩ := h
  unfold readVersion
  rw [if_neg, if_neg, if_neg]
  · exact hreturns
  · exact hfills
  · exact hcurrent

theorem readVersion_of_incompatible {expected : Nat} (h : Abi.Expects version expected) (hne : size ≠ expected) :
    readVersion e version size = ([], .error (.incompatible version expected size)) := by
  cases h with
  | current => exact if_pos hne
  | fills => exact if_pos hne
  | returns => exact if_pos hne

theorem readVersion_of_lacks {symbol : String} (h : Abi.Expects version size) (hlacks : e.Lacks version symbol) :
    readVersion e version size = ([], .error (.missingInfoFunction version symbol)) := by
  cases h with
  | current =>
    cases hlacks with
    | multi hnone => simp [readVersion, Abi.currentVersion, Abi.descriptorSize, Abi.multiSymbol, hnone]
  | fills =>
    cases hlacks with
    | fills hnone =>
      simp [readVersion, Abi.currentVersion, Abi.fillVersion, Abi.legacySize, Abi.singleSymbol, hnone]
  | returns =>
    cases hlacks with
    | returns hnone =>
      simp [readVersion, Abi.currentVersion, Abi.fillVersion, Abi.returnVersion, Abi.legacySize,
        Abi.singleSymbol, hnone]

theorem readVersion_of_refuses {s : DescribeLegacy} (h : e.single = some s) (hrefuses : s.fill 24 = none) :
    readVersion e 2 24 = ([.describeLegacy .fills], .error (.legacyInfoUnavailable 2)) := by
  simp [readVersion, Abi.currentVersion, Abi.fillVersion, Abi.legacySize, h, hrefuses]

theorem readVersion_current {d : Describe} (h : e.multi = some d) :
    readVersion e 3 40 = settle 3 (readCurrent d) := by
  simp [readVersion, Abi.currentVersion, Abi.descriptorSize, h]

theorem readVersion_fills {s : DescribeLegacy} {d : LegacyDescriptor} (h : e.single = some s)
    (hfill : s.fill 24 = some d) : readVersion e 2 24 = settle 2 (readLegacy .fills d) := by
  simp [readVersion, Abi.currentVersion, Abi.fillVersion, Abi.legacySize, h, hfill]

theorem readVersion_returns {s : DescribeLegacy} (h : e.single = some s) :
    readVersion e 1 24 = settle 1 (readLegacy .returns s.value) := by
  simp [readVersion, Abi.currentVersion, Abi.fillVersion, Abi.returnVersion, Abi.legacySize, h]

theorem settle_snd (read : List Probe × List PluginInfo) :
    (settle version read).2 = if read.2 = [] then .error .noDescriptors else .ok ⟨version, read.2⟩ := by
  unfold settle
  cases read.2 <;> rfl

/-- What the function of the version gives out is read, and the usable ones are kept. -/
theorem readVersion_of_gives {raws : List RawDescriptor} (h : Abi.Expects version size)
    (hgives : e.Gives version raws) :
    (readVersion e version size).2 =
      if raws.filterMap RawDescriptor.info? = [] then .error .noDescriptors
      else .ok ⟨version, raws.filterMap RawDescriptor.info?⟩ := by
  cases h with
  | current =>
    cases hgives with
    | @current d k hmulti hends =>
      have hinfos : (readCurrent d).2 = ((List.range k).map fun i =>
          RawDescriptor.current (d.respond i 40).descriptor).filterMap RawDescriptor.info? := by
        rw [Describe.readCurrent_of_endsAt hends, List.filterMap_map]
        rfl
      rw [readVersion_current hmulti, settle_snd, hinfos]
  | fills =>
    cases hgives with
    | @fills s d hsingle hfill =>
      rw [readVersion_fills hsingle hfill, settle_snd]
      rfl
  | returns =>
    cases hgives with
    | @returns s hsingle =>
      rw [readVersion_returns hsingle, settle_snd]
      rfl

/-- A library has the outcome of every row that it meets. -/
theorem Verdict.negotiate_eq {r : Except AbiError Negotiated} (h : e.Verdict r) : (negotiate e).2 = r := by
  cases h with
  | missingSymbols h => rw [negotiate_of_undeclared h]
  | unsupportedVersion h hversion => rw [h.negotiate_eq, readVersion_of_unsupported hversion]
  | incompatible h hexpects hne => rw [h.negotiate_eq, readVersion_of_incompatible hexpects hne]
  | missingInfoFunction h hexpects hlacks => rw [h.negotiate_eq, readVersion_of_lacks hexpects hlacks]
  | legacyInfoUnavailable h hsingle hrefuses => rw [h.negotiate_eq, readVersion_of_refuses hsingle hrefuses]
  | noDescriptors h hexpects hgives hnone =>
    rw [h.negotiate_eq, readVersion_of_gives hexpects hgives,
      if_pos (RawDescriptor.filterMap_info?_eq_nil_iff.2 hnone)]
  | @accepted _ _ raws h hexpects hgives hsome =>
    have hne : raws.filterMap RawDescriptor.info? ≠ [] := by
      obtain ⟨raw, hraw, husable⟩ := hsome
      exact fun hnil => RawDescriptor.filterMap_info?_eq_nil_iff.1 hnil raw hraw husable
    rw [h.negotiate_eq, readVersion_of_gives hexpects hgives, if_neg hne]

/-! ## No library without a row -/

theorem expects_or_unsupported (version : Int) :
    (version ≠ 1 ∧ version ≠ 2 ∧ version ≠ 3) ∨ ∃ expected, Abi.Expects version expected := by
  by_cases hcurrent : version = 3
  · exact .inr ⟨40, hcurrent ▸ .current⟩
  · by_cases hfills : version = 2
    · exact .inr ⟨24, hfills ▸ .fills⟩
    · by_cases hreturns : version = 1
      · exact .inr ⟨24, hreturns ▸ .returns⟩
      · exact .inl ⟨hreturns, hfills, hcurrent⟩

/-- With a version and its size, the function is missing, refuses or gives out descriptors. -/
theorem lacks_or_gives (e : Exports) (h : Abi.Expects version size) :
    (∃ symbol, e.Lacks version symbol) ∨
      (version = 2 ∧ size = 24 ∧ ∃ s, e.single = some s ∧ s.fill 24 = none) ∨
      ∃ raws, e.Gives version raws := by
  cases h with
  | current =>
    cases hmulti : e.multi with
    | none => exact .inl ⟨_, .multi hmulti⟩
    | some d =>
      obtain ⟨k, hends⟩ := d.exists_endsAt
      exact .inr (.inr ⟨_, .current hmulti hends⟩)
  | fills =>
    cases hsingle : e.single with
    | none => exact .inl ⟨_, .fills hsingle⟩
    | some s =>
      cases hfill : s.fill 24 with
      | none => exact .inr (.inl ⟨rfl, rfl, s, rfl, hfill⟩)
      | some d => exact .inr (.inr ⟨_, .fills hsingle hfill⟩)
  | returns =>
    cases hsingle : e.single with
    | none => exact .inl ⟨_, .returns hsingle⟩
    | some s => exact .inr (.inr ⟨_, .returns hsingle⟩)

theorem undeclared_or_declares (e : Exports) :
    (e.version = none ∨ e.infoSize = none ∨ (e.multi = none ∧ e.single = none)) ∨
      ∃ version size, e.Declares version size := by
  cases hversion : e.version with
  | none => exact .inl (.inl rfl)
  | some version =>
    cases hsize : e.infoSize with
    | none => exact .inl (.inr (.inl rfl))
    | some size =>
      by_cases hfunction : e.multi = none ∧ e.single = none
      · exact .inl (.inr (.inr hfunction))
      · exact .inr ⟨version, size, hversion, hsize, hfunction⟩

/-- Every library meets a row. -/
theorem exists_verdict (e : Exports) : ∃ r, e.Verdict r := by
  rcases e.undeclared_or_declares with hundeclared | ⟨version, found, h⟩
  · exact ⟨_, .missingSymbols hundeclared⟩
  · rcases expects_or_unsupported version with hversion | ⟨expected, hexpects⟩
    · exact ⟨_, .unsupportedVersion h hversion⟩
    · by_cases hsize : found = expected
      · subst hsize
        rcases e.lacks_or_gives hexpects with ⟨symbol, hlacks⟩ | ⟨rfl, rfl, s, hs, hrefuses⟩ | ⟨raws, hgives⟩
        · exact ⟨_, .missingInfoFunction h hexpects hlacks⟩
        · exact ⟨_, .legacyInfoUnavailable h hs hrefuses⟩
        · by_cases hsome : ∃ raw ∈ raws, raw.Usable
          · exact ⟨_, .accepted h hexpects hgives hsome⟩
          · exact ⟨_, .noDescriptors h hexpects hgives fun raw hraw husable => hsome ⟨raw, hraw, husable⟩⟩
      · exact ⟨_, .incompatible h hexpects hsize⟩

theorem negotiate_iff (e : Exports) (r : Except AbiError Negotiated) : (negotiate e).2 = r ↔ e.Verdict r := by
  constructor
  · rintro rfl
    obtain ⟨r, hverdict⟩ := e.exists_verdict
    rw [hverdict.negotiate_eq]
    exact hverdict
  · exact Verdict.negotiate_eq

/-! ## What is accepted -/

/-- A library has exactly the outcome in the table. What is accepted is never empty, and it is outdated when
the version is one of the two older ones.

Two things about libraries are in the types. The function of one legacy descriptor is read from one symbol for
both older versions, so a library has it for both of them or for neither. A function of the current version
answers zero at some index: of one that never does, there would be no outcome, since it is asked on for ever. -/
structure Decided (e : Exports) : Prop where
  verdict : ∀ r, (negotiate e).2 = r ↔ e.Verdict r
  nonempty : ∀ n, (negotiate e).2 = .ok n → n.infos ≠ []
  outdated : ∀ n, (negotiate e).2 = .ok n → (n.isOutdated = true ↔ n.version = 1 ∨ n.version = 2)

theorem decided (e : Exports) : e.Decided where
  verdict := e.negotiate_iff
  nonempty n hn := by
    cases (e.negotiate_iff _).1 hn with
    | accepted h hexpects hgives hsome =>
      obtain ⟨raw, hraw, husable⟩ := hsome
      exact fun hnil => RawDescriptor.filterMap_info?_eq_nil_iff.1 hnil raw hraw husable
  outdated n hn := by
    cases (e.negotiate_iff _).1 hn with
    | accepted h hexpects hgives hsome =>
      cases hexpects <;> simp [Negotiated.isOutdated, Abi.currentVersion]

end Exports

end PluginHost
