import PluginHost.Proofs.Image.Verdict

/-!
# The calls that read a library

A function of a library is called only when the library declares the version and the size that the function is
made for. So one of the two functions is asked, or none, and what the other one does cannot matter.

* `Exports.Ready`: nothing speaks against a call.
* `Exports.Asks`: the calls. `Exports.calls_iff`: these are the ones that are made.
* `Exports.calls_eq_nil_iff`: with which outcomes none is made.
* `Exports.negotiate_congr`: a function that is not called may do what it wants.
-/

namespace PluginHost

set_option autoImplicit false

def Probe.call? : Probe → Option Call
  | .describe index => some (.describe index)
  | .describeLegacy shape => some (.describeLegacy shape)
  | .notice _ => none

/-- The error is found before a function of the library is called. -/
def AbiError.Early : AbiError → Prop
  | .missingSymbols | .unsupportedVersion _ | .incompatible _ _ _ | .missingInfoFunction _ _ => True
  | .legacyInfoUnavailable _ | .noDescriptors => False

/-! ## Calls of an enumeration -/

theorem call?_notices (notices : List Notice) : (notices.map Probe.notice).filterMap Probe.call? = [] := by
  induction notices with
  | nil => rfl
  | cons n rest ih => exact ih

theorem calls_readCall (call : Nat × Response) :
    (readCall call).1.filterMap Probe.call? = [.describe call.1] := by
  unfold readCall
  split
  · rfl
  · split
    · simp only [List.filterMap_cons, Probe.call?, call?_notices]
    · simp only [List.filterMap_append, List.filterMap_cons, Probe.call?, call?_notices]
      rfl

theorem calls_readCurrent {d : Describe} {k : Nat} (h : d.EndsAt k) :
    (readCurrent d).1.filterMap Probe.call? = (List.range (k + 1)).map Call.describe := by
  have hcalls : ∀ calls : List (Nat × Response),
      (calls.flatMap fun call => (readCall call).1).filterMap Probe.call? =
        calls.map fun call => Call.describe call.1 := by
    intro calls
    induction calls with
    | nil => rfl
    | cons call rest ih =>
      rw [List.flatMap_cons, List.filterMap_append, calls_readCall, ih]
      rfl
  rw [readCurrent, hcalls, Describe.calls_of_endsAt h, List.map_map]
  rfl

theorem calls_readLegacy (shape : LegacyShape) (d : LegacyDescriptor) :
    (readLegacy shape d).1.filterMap Probe.call? = [.describeLegacy shape] := by
  simp only [readLegacy, List.filterMap_cons, Probe.call?, call?_notices]

theorem settle_fst (version : Int) (read : List Probe × List PluginInfo) :
    (settle version read).1 = read.1 := by
  unfold settle
  split <;> rfl

namespace Exports

/-! ## Which function is asked -/

/-- The library declares a version with its size, and has the function that this version needs. -/
structure Ready (e : Exports) (version : Int) (size : Nat) : Prop where
  declares : e.Declares version size
  expects : Abi.Expects version size
  present : ∀ symbol, ¬ e.Lacks version symbol

/-- The calls by which a library is read: for the current version one for every index up to the first answer
of zero, and for an older one a single call in the shape of that version. -/
inductive Asks (e : Exports) : List Call → Prop where
  | never (h : ∀ version size, ¬ e.Ready version size) : Asks e []
  | current {d : Describe} {k : Nat} (h : e.Declares 3 40) (hmulti : e.multi = some d) (hends : d.EndsAt k) :
    Asks e ((List.range (k + 1)).map Call.describe)
  | fills {s : DescribeLegacy} (h : e.Declares 2 24) (hsingle : e.single = some s) :
    Asks e [.describeLegacy .fills]
  | returns {s : DescribeLegacy} (h : e.Declares 1 24) (hsingle : e.single = some s) :
    Asks e [.describeLegacy .returns]

def calls (e : Exports) : List Call := (negotiate e).1.filterMap Probe.call?

variable {e : Exports}

/-- What speaks against a call is the error, and no call is made. -/
theorem ready_or_early (e : Exports) :
    (∃ version size, e.Ready version size) ∨ ∃ x, AbiError.Early x ∧ negotiate e = ([], .error x) := by
  rcases e.undeclared_or_declares with hundeclared | ⟨version, found, h⟩
  · exact .inr ⟨.missingSymbols, trivial, negotiate_of_undeclared hundeclared⟩
  · rcases expects_or_unsupported version with hversion | ⟨expected, hexpects⟩
    · refine .inr ⟨.unsupportedVersion version, trivial, ?_⟩
      rw [h.negotiate_eq, readVersion_of_unsupported hversion]
    · by_cases hsize : found = expected
      · subst hsize
        by_cases hlacks : ∃ symbol, e.Lacks version symbol
        · obtain ⟨symbol, hlacks⟩ := hlacks
          refine .inr ⟨.missingInfoFunction version symbol, trivial, ?_⟩
          rw [h.negotiate_eq, readVersion_of_lacks hexpects hlacks]
        · exact .inl ⟨version, found, h, hexpects, fun symbol hs => hlacks ⟨symbol, hs⟩⟩
      · refine .inr ⟨.incompatible version expected found, trivial, ?_⟩
        rw [h.negotiate_eq, readVersion_of_incompatible hexpects hsize]

/-- A library that nothing speaks against has the function, which is called. -/
theorem Ready.asks_calls {version : Int} {size : Nat} (h : e.Ready version size) : e.Asks e.calls := by
  obtain ⟨hdeclares, hexpects, hpresent⟩ := h
  rw [calls, hdeclares.negotiate_eq]
  cases hexpects with
  | current =>
    obtain ⟨d, hmulti⟩ := Option.ne_none_iff_exists'.1 fun hnone => hpresent _ (.multi hnone)
    obtain ⟨k, hends⟩ := d.exists_endsAt
    rw [readVersion_current hmulti, settle_fst, calls_readCurrent hends]
    exact .current hdeclares hmulti hends
  | fills =>
    obtain ⟨s, hsingle⟩ := Option.ne_none_iff_exists'.1 fun hnone => hpresent _ (.fills hnone)
    have hcalls : (readVersion e 2 24).1.filterMap Probe.call? = [.describeLegacy .fills] := by
      cases hfill : s.fill 24 with
      | none =>
        rw [readVersion_of_refuses hsingle hfill]
        rfl
      | some d => rw [readVersion_fills hsingle hfill, settle_fst, calls_readLegacy]
    rw [hcalls]
    exact .fills hdeclares hsingle
  | returns =>
    obtain ⟨s, hsingle⟩ := Option.ne_none_iff_exists'.1 fun hnone => hpresent _ (.returns hnone)
    rw [readVersion_returns hsingle, settle_fst, calls_readLegacy]
    exact .returns hdeclares hsingle

theorem asks_calls (e : Exports) : e.Asks e.calls := by
  by_cases hready : ∃ version size, e.Ready version size
  · obtain ⟨version, size, h⟩ := hready
    exact h.asks_calls
  · rcases e.ready_or_early with hready' | ⟨x, -, hx⟩
    · exact absurd hready' hready
    · rw [calls, hx]
      exact .never fun version size h => hready ⟨version, size, h⟩

theorem Declares.unique {version version' : Int} {size size' : Nat} (h : e.Declares version size)
    (h' : e.Declares version' size') : version = version' ∧ size = size' :=
  ⟨Option.some.inj (h.version.symm.trans h'.version), Option.some.inj (h.infoSize.symm.trans h'.infoSize)⟩

theorem ready_current {d : Describe} (h : e.Declares 3 40) (hmulti : e.multi = some d) : e.Ready 3 40 := by
  refine ⟨h, .current, fun symbol hlacks => ?_⟩
  cases hlacks with
  | multi hnone => simp [hmulti] at hnone

theorem ready_fills {s : DescribeLegacy} (h : e.Declares 2 24) (hsingle : e.single = some s) : e.Ready 2 24 := by
  refine ⟨h, .fills, fun symbol hlacks => ?_⟩
  cases hlacks with
  | fills hnone => simp [hsingle] at hnone

theorem ready_returns {s : DescribeLegacy} (h : e.Declares 1 24) (hsingle : e.single = some s) :
    e.Ready 1 24 := by
  refine ⟨h, .returns, fun symbol hlacks => ?_⟩
  cases hlacks with
  | returns hnone => simp [hsingle] at hnone

/-- One list of calls is asked for. An enumeration ends where zero is first returned, so its end is fixed too. -/
theorem Asks.unique {cs cs' : List Call} (h : e.Asks cs) (h' : e.Asks cs') : cs = cs' := by
  cases h with
  | never hnever =>
    cases h' with
    | never => rfl
    | current h hmulti _ => exact absurd (ready_current h hmulti) (hnever _ _)
    | fills h hsingle => exact absurd (ready_fills h hsingle) (hnever _ _)
    | returns h hsingle => exact absurd (ready_returns h hsingle) (hnever _ _)
  | @current d k h hmulti hends =>
    cases h' with
    | never hnever => exact absurd (ready_current h hmulti) (hnever _ _)
    | @current d' k' _ hmulti' hends' =>
      obtain rfl : d = d' := Option.some.inj (hmulti.symm.trans hmulti')
      have hle : k' ≤ k := Nat.le_of_not_lt fun hlt => hends'.before k hlt hends.zero
      have hge : k ≤ k' := Nat.le_of_not_lt fun hlt => hends.before k' hlt hends'.zero
      rw [Nat.le_antisymm hge hle]
    | fills h₂ _ => exact absurd (h.unique h₂).1 (by decide)
    | returns h₁ _ => exact absurd (h.unique h₁).1 (by decide)
  | fills h hsingle =>
    cases h' with
    | never hnever => exact absurd (ready_fills h hsingle) (hnever _ _)
    | current h₃ _ _ => exact absurd (h.unique h₃).1 (by decide)
    | fills => rfl
    | returns h₁ _ => exact absurd (h.unique h₁).1 (by decide)
  | returns h hsingle =>
    cases h' with
    | never hnever => exact absurd (ready_returns h hsingle) (hnever _ _)
    | current h₃ _ _ => exact absurd (h.unique h₃).1 (by decide)
    | fills h₂ _ => exact absurd (h.unique h₂).1 (by decide)
    | returns => rfl

theorem calls_iff {cs : List Call} : e.calls = cs ↔ e.Asks cs := by
  constructor
  · rintro rfl
    exact e.asks_calls
  · exact fun h => e.asks_calls.unique h

/-- An early error is seen before any call, and every other outcome comes after one. -/
theorem calls_eq_nil_iff : e.calls = [] ↔ ∃ x, AbiError.Early x ∧ (negotiate e).2 = .error x := by
  constructor
  · intro hnone
    rcases e.ready_or_early with ⟨version, size, h⟩ | ⟨x, hx, heq⟩
    · have hasks := h.asks_calls
      rw [hnone] at hasks
      generalize hcs : ([] : List Call) = cs at hasks
      cases hasks with
      | never hnever => exact absurd h (hnever _ _)
      | current => simp [List.range_succ] at hcs
      | fills => cases hcs
      | returns => cases hcs
    · exact ⟨x, hx, by rw [heq]⟩
  · rintro ⟨x, hx, heq⟩
    cases (e.negotiate_iff _).1 heq with
    | missingSymbols h => rw [calls, negotiate_of_undeclared h]; rfl
    | unsupportedVersion h hversion => rw [calls, h.negotiate_eq, readVersion_of_unsupported hversion]; rfl
    | incompatible h hexpects hne => rw [calls, h.negotiate_eq, readVersion_of_incompatible hexpects hne]; rfl
    | missingInfoFunction h hexpects hlacks =>
      rw [calls, h.negotiate_eq, readVersion_of_lacks hexpects hlacks]
      rfl
    | legacyInfoUnavailable => exact hx.elim
    | noDescriptors => exact hx.elim

/-! ## What is not called -/

/-- The exports look the same, and the function that is called, if there is one, is the same. -/
structure Alike (e e' : Exports) : Prop where
  version : e'.version = e.version
  infoSize : e'.infoSize = e.infoSize
  multi : e'.multi = none ↔ e.multi = none
  single : e'.single = none ↔ e.single = none
  current : e.Declares 3 40 → e'.multi = e.multi
  fills : e.Declares 2 24 → (e'.single.map fun s => s.fill 24) = e.single.map fun s => s.fill 24
  returns : e.Declares 1 24 → e'.single.map DescribeLegacy.value = e.single.map DescribeLegacy.value

theorem Alike.readVersion_eq {e' : Exports} {version : Int} {size : Nat} (ha : e.Alike e')
    (h : e.Declares version size) (hexpects : Abi.Expects version size) :
    readVersion e' version size = readVersion e version size := by
  cases hexpects with
  | current =>
    have hmulti' := ha.current h
    cases hmulti : e.multi with
    | none => rw [readVersion_of_lacks .current (.multi (ha.multi.2 hmulti)),
        readVersion_of_lacks .current (.multi hmulti)]
    | some d => rw [readVersion_current (hmulti'.trans hmulti), readVersion_current hmulti]
  | fills =>
    have hfills := ha.fills h
    cases hsingle : e.single with
    | none => rw [readVersion_of_lacks .fills (.fills (ha.single.2 hsingle)),
        readVersion_of_lacks .fills (.fills hsingle)]
    | some s =>
      rw [hsingle, Option.map_some, Option.map_eq_some_iff] at hfills
      obtain ⟨s', hsingle', hsame⟩ := hfills
      cases hfill : s.fill 24 with
      | none => rw [readVersion_of_refuses hsingle' (hsame.trans hfill), readVersion_of_refuses hsingle hfill]
      | some d => rw [readVersion_fills hsingle' (hsame.trans hfill), readVersion_fills hsingle hfill]
  | returns =>
    have hreturns := ha.returns h
    cases hsingle : e.single with
    | none => rw [readVersion_of_lacks .returns (.returns (ha.single.2 hsingle)),
        readVersion_of_lacks .returns (.returns hsingle)]
    | some s =>
      rw [hsingle, Option.map_some, Option.map_eq_some_iff] at hreturns
      obtain ⟨s', hsingle', hsame⟩ := hreturns
      rw [readVersion_returns hsingle', readVersion_returns hsingle, hsame]

/-- Nothing depends on a function that is not called. -/
theorem negotiate_congr {e' : Exports} (ha : e.Alike e') : negotiate e' = negotiate e := by
  rcases e.undeclared_or_declares with hundeclared | ⟨version, found, h⟩
  · rw [negotiate_of_undeclared hundeclared, negotiate_of_undeclared]
    rwa [ha.version, ha.infoSize, ha.multi, ha.single]
  · have h' : e'.Declares version found :=
      ⟨ha.version.trans h.version, ha.infoSize.trans h.infoSize, by rw [ha.multi, ha.single]; exact h.function⟩
    rw [h.negotiate_eq, h'.negotiate_eq]
    rcases expects_or_unsupported version with hversion | ⟨expected, hexpects⟩
    · rw [readVersion_of_unsupported hversion, readVersion_of_unsupported hversion]
    · by_cases hsize : found = expected
      · subst hsize
        exact ha.readVersion_eq h hexpects
      · rw [readVersion_of_incompatible hexpects hsize, readVersion_of_incompatible hexpects hsize]

end Exports

end PluginHost
