import Mathlib.Data.List.Basic
import PluginHost.Image

/-!
# Enumerations

A host asks for descriptors from index zero on until an answer is zero. Which answer is the first zero
decides how often it asks and which descriptors it reads, whatever the function is; for a table that a
library gives out the first zero stands at the end of the table.

* `Describe.EndsAt`: the first answer of zero.
* `Describe.calls_of_endsAt`, `Describe.readCurrent_of_endsAt`: every call up to the first zero, and the
  usable descriptors before it.
* `Export.Answered`: the answer for an index and what is written.
* `DescriptorTable.Served`: the enumeration of a whole table.
* `enumeration`: all of it for every table, every question and every function.
-/

namespace PluginHost

set_option autoImplicit false

/-! ## The calls of an enumeration -/

theorem callsFrom_eq_map_range' {respond : Nat → Response} {m fuel index : Nat} (hfuel : m ≤ fuel)
    (hzero : (respond (index + m)).remaining = 0)
    (hbefore : ∀ i < m, (respond (index + i)).remaining ≠ 0) :
    callsFrom respond fuel index = (List.range' index (m + 1)).map fun i => (i, respond i) := by
  induction m generalizing fuel index with
  | zero =>
    rw [Nat.add_zero] at hzero
    cases fuel with
    | zero => rfl
    | succ fuel => simp [callsFrom, hzero]
  | succ m ih =>
    have hhere : (respond index).remaining ≠ 0 := hbefore 0 (Nat.succ_pos m)
    have hzero' : (respond (index + 1 + m)).remaining = 0 := by
      have e : index + 1 + m = index + (m + 1) := by omega
      rw [e]
      exact hzero
    have hbefore' : ∀ i < m, (respond (index + 1 + i)).remaining ≠ 0 := by
      intro i hi
      have e : index + 1 + i = index + (i + 1) := by omega
      rw [e]
      exact hbefore (i + 1) (by omega)
    cases fuel with
    | zero => omega
    | succ fuel =>
      have hrange : List.range' index (m + 1 + 1) = index :: List.range' (index + 1) (m + 1) :=
        List.range'_succ
      rw [callsFrom, if_neg hhere, ih (by omega) hzero' hbefore', hrange]
      rfl

namespace Describe

/-- Index `k` is the first that is answered with zero. -/
structure EndsAt (d : Describe) (k : Nat) : Prop where
  zero : (d.respond k Abi.descriptorSize).remaining = 0
  before : ∀ i < k, (d.respond i Abi.descriptorSize).remaining ≠ 0

variable {d : Describe} {k : Nat}

/-- The bound of a function is one of the indices that are answered with zero. -/
theorem EndsAt.le_bound (h : d.EndsAt k) : k ≤ d.bound :=
  Nat.le_of_not_lt fun hlt => h.before d.bound hlt d.ends

theorem calls_of_endsAt (h : d.EndsAt k) :
    d.calls = (List.range (k + 1)).map fun i => (i, d.respond i Abi.descriptorSize) := by
  have hcalls : callsFrom (fun i => d.respond i Abi.descriptorSize) d.bound 0 =
      (List.range' 0 (k + 1)).map fun i => (i, d.respond i Abi.descriptorSize) :=
    callsFrom_eq_map_range' h.le_bound (by simpa using h.zero) (by simpa using h.before)
  rw [List.range_eq_range']
  exact hcalls

end Describe

/-! ## What is read -/

/-- What is kept of the answer to one call. -/
theorem readCall_snd (call : Nat × Response) :
    (readCall call).2 =
      if call.2.remaining = 0 then none else (PluginInfo.ofDescriptor call.2.descriptor).2 := by
  unfold readCall
  split
  · rfl
  · split <;> next heq => rw [heq]

/-- The index that is asked for, when the event is a call. -/
def Probe.asked? : Probe → Option Nat
  | .describe index => some index
  | _ => none

/-- Among what happens on a call stands the call itself, once. -/
theorem asked_readCall (call : Nat × Response) :
    (readCall call).1.filterMap Probe.asked? = [call.1] := by
  have hnotices : ∀ notices : List Notice, (notices.map Probe.notice).filterMap Probe.asked? = [] := by
    intro notices
    simp [Probe.asked?, List.filterMap_map, Function.comp_def]
  unfold readCall
  split
  · rfl
  · split
    · simp [Probe.asked?, hnotices]
    · simp [Probe.asked?, hnotices]

theorem asked_readCurrent (d : Describe) :
    (readCurrent d).1.filterMap Probe.asked? = d.calls.map Prod.fst := by
  unfold readCurrent
  induction d.calls with
  | nil => rfl
  | cons call calls ih =>
    simp only [List.flatMap_cons, List.filterMap_append, asked_readCall, List.map_cons] at ih ⊢
    rw [ih]
    rfl

namespace Describe

variable {d : Describe} {k : Nat}

/-- The descriptors before the first zero are read, and no other. -/
theorem readCurrent_of_endsAt (h : d.EndsAt k) :
    (readCurrent d).2 = (List.range k).filterMap fun i =>
      (PluginInfo.ofDescriptor (d.respond i Abi.descriptorSize).descriptor).2 := by
  have hlast : (readCall (k, d.respond k Abi.descriptorSize)).2 = none := by
    rw [readCall_snd, if_pos h.zero]
  have hread : ∀ i ∈ List.range k, (readCall (i, d.respond i Abi.descriptorSize)).2 =
      (PluginInfo.ofDescriptor (d.respond i Abi.descriptorSize).descriptor).2 := by
    intro i hi
    rw [readCall_snd, if_neg (h.before i (List.mem_range.1 hi))]
  calc (readCurrent d).2
      = (List.range (k + 1)).filterMap fun i =>
          (readCall (i, d.respond i Abi.descriptorSize)).2 := by
        simp only [readCurrent, calls_of_endsAt h, List.filterMap_map, Function.comp_def]
    _ = (List.range k).filterMap fun i => (readCall (i, d.respond i Abi.descriptorSize)).2 := by
        rw [List.range_succ, List.filterMap_append]
        simp [hlast]
    _ = _ := List.filterMap_congr hread

/-- The enumeration of a function whose first zero is at `k`: `k + 1` calls, one for each index in turn,
and the usable ones of the descriptors before `k`. -/
structure Enumerated (d : Describe) (k : Nat) : Prop where
  calls : d.calls = (List.range (k + 1)).map fun i => (i, d.respond i Abi.descriptorSize)
  asked : (readCurrent d).1.filterMap Probe.asked? = List.range (k + 1)
  infos : (readCurrent d).2 = (List.range k).filterMap fun i =>
    (PluginInfo.ofDescriptor (d.respond i Abi.descriptorSize).descriptor).2

theorem EndsAt.enumerated (h : d.EndsAt k) : d.Enumerated k where
  calls := calls_of_endsAt h
  asked := by
    rw [asked_readCurrent, calls_of_endsAt h, List.map_map]
    exact List.map_id _
  infos := readCurrent_of_endsAt h

end Describe

/-! ## One answer -/

namespace Export

/-- What stands in a place after an answer, which may have written there. -/
def written (before : Descriptor) (answer : Nat × Option Descriptor) : Descriptor :=
  answer.2.getD before

/-- An answer refuses and leaves the place as it was, or writes the descriptor asked for and counts the
descriptors from it on. -/
inductive Answered (table : List Descriptor) (writable : Bool) (index size : Nat) (before : Descriptor) :
    Prop where
  | refused (why : writable = false ∨ size ≠ Abi.descriptorSize ∨ table.length ≤ index)
      (count : (fill table writable index size).1 = 0)
      (place : written before (fill table writable index size) = before)
  | given (place : writable = true) (fits : size = Abi.descriptorSize) (within : index < table.length)
      (count : (fill table writable index size).1 = table.length - index)
      (exact : (fill table writable index size).1 + index = table.length)
      (descriptor : written before (fill table writable index size) = table[index])

theorem fill_within {table : List Descriptor} {index : Nat} (h : index < table.length) :
    fill table true index Abi.descriptorSize = (table.length - index, some table[index]) := by
  simp [fill, h]

theorem fill_refused {table : List Descriptor} {writable : Bool} {index size : Nat}
    (h : writable = false ∨ size ≠ Abi.descriptorSize ∨ table.length ≤ index) :
    fill table writable index size = (0, none) := by
  rcases h with h | h | h
  · simp [fill, h]
  · simp [fill, h]
  · exact fill_past_end table writable index size h

theorem answered (table : List Descriptor) (writable : Bool) (index size : Nat) (before : Descriptor) :
    Answered table writable index size before := by
  by_cases h : writable = false ∨ size ≠ Abi.descriptorSize ∨ table.length ≤ index
  · exact .refused h (by rw [fill_refused h]) (by rw [fill_refused h]; rfl)
  · have hplace : writable = true := by
      cases writable with
      | false => exact absurd (.inl rfl) h
      | true => rfl
    have hfits : size = Abi.descriptorSize := Decidable.byContradiction fun hne => h (.inr (.inl hne))
    have hwithin : index < table.length := by
      have hle : ¬ table.length ≤ index := fun hle => h (.inr (.inr hle))
      omega
    subst hplace hfits
    have hfill := fill_within hwithin
    refine .given rfl rfl hwithin (by rw [hfill]) ?_ (by rw [hfill]; rfl)
    rw [hfill]
    exact Nat.sub_add_cancel (Nat.le_of_lt hwithin)

end Export

/-! ## A whole table -/

namespace DescriptorTable

variable {rows : List Descriptor}

theorem respond_within {i : Nat} (h : i < rows.length) :
    (⟨rows, none⟩ : DescriptorTable).respond i Abi.descriptorSize = ⟨rows.length - i, rows[i]⟩ := by
  simp [respond, Export.fill_within h]

theorem endsAt_length (rows : List Descriptor) :
    (⟨rows, none⟩ : DescriptorTable).describe.EndsAt rows.length where
  zero := respond_end ⟨rows, none⟩ Abi.descriptorSize
  before i hi := by
    show ((⟨rows, none⟩ : DescriptorTable).respond i Abi.descriptorSize).remaining ≠ 0
    rw [respond_within hi]
    exact Nat.sub_ne_zero_of_lt hi

/-- The enumeration of a table with `n` rows: the indices from `0` to `n`, the answers from `n` down to
`0`, and the usable rows in their order. -/
structure Served (rows : List Descriptor) : Prop where
  indices : (⟨rows, none⟩ : DescriptorTable).describe.calls.map Prod.fst = List.range (rows.length + 1)
  answers : (⟨rows, none⟩ : DescriptorTable).describe.calls.map (fun call => call.2.remaining) =
    (List.range (rows.length + 1)).reverse
  infos : (readCurrent (⟨rows, none⟩ : DescriptorTable).describe).2 =
    rows.filterMap fun d => (PluginInfo.ofDescriptor d).2

theorem served (rows : List Descriptor) : Served rows := by
  have hends := endsAt_length rows
  have hcalls := Describe.calls_of_endsAt hends
  refine ⟨?_, ?_, ?_⟩
  · rw [hcalls, List.map_map]
    exact List.map_id _
  · rw [hcalls, List.map_map]
    refine List.ext_getElem (by simp) fun i hi _ => ?_
    have hle : i ≤ rows.length := by simpa [Nat.lt_succ_iff] using hi
    have hanswer : ((⟨rows, none⟩ : DescriptorTable).respond i Abi.descriptorSize).remaining =
        rows.length - i := by
      rcases Nat.lt_or_eq_of_le hle with hlt | rfl
      · rw [respond_within hlt]
      · rw [respond_end, Nat.sub_self]
    simpa [describe] using hanswer
  · have hrows : (List.range rows.length).map (fun i =>
        ((⟨rows, none⟩ : DescriptorTable).respond i Abi.descriptorSize).descriptor) = rows := by
      refine List.ext_getElem (by simp) fun i _ hi => ?_
      simp [respond_within hi]
    rw [Describe.readCurrent_of_endsAt hends]
    calc (List.range rows.length).filterMap (fun i => (PluginInfo.ofDescriptor
            ((⟨rows, none⟩ : DescriptorTable).respond i Abi.descriptorSize).descriptor).2)
        = ((List.range rows.length).map fun i =>
            ((⟨rows, none⟩ : DescriptorTable).respond i Abi.descriptorSize).descriptor).filterMap
              fun d => (PluginInfo.ofDescriptor d).2 := by rw [List.filterMap_map]; rfl
      _ = rows.filterMap fun d => (PluginInfo.ofDescriptor d).2 := by rw [hrows]

end DescriptorTable

/-! ## Both sides together -/

/-- A table is enumerated row by row, an answer counts what is left and writes one row or nothing, and
any function is asked up to its first zero. -/
theorem enumeration :
    (∀ rows, DescriptorTable.Served rows) ∧
      (∀ table writable index size before, Export.Answered table writable index size before) ∧
      ∀ (d : Describe) (k : Nat), d.EndsAt k → d.Enumerated k :=
  ⟨DescriptorTable.served, Export.answered, fun _ _ h => h.enumerated⟩

/-- A descriptor with a name, a factory and a deleter. -/
def Descriptor.plain (name : List UInt8) : Descriptor :=
  ⟨some name, none, some ⟨"t", .nothing, .named "t"⟩, true⟩

/-- Four rows, of which the second is unusable; asked for row three, the function answers zero. -/
def interrupted : DescriptorTable :=
  ⟨[.plain [97], .empty, .plain [98], .plain [99]], some 3⟩

theorem enumeration_of_interrupted : interrupted.describe.EndsAt 3 ∧
    interrupted.describe.calls.length = 4 ∧
    (readCurrent interrupted.describe).2.map PluginInfo.name = ["a", "b"] := by
  have hends : interrupted.describe.EndsAt 3 := ⟨by decide, by decide⟩
  obtain ⟨hcalls, -, hinfos⟩ := enumeration.2.2 interrupted.describe 3 hends
  refine ⟨hends, by rw [hcalls]; rfl, ?_⟩
  rw [hinfos]
  decide

end PluginHost
