import PluginHost.Capability.Set

/-!
# Publications in order

A set is made by publishing one object after the other. At every point it answers an interface with the object
of the first publication for it, and keeps that answer whatever is published later.

* `CapabilitySet.published`: the set that some publications make.
* `CapabilitySet.First`: the object of the first publication for an interface.
* `CapabilitySet.recorded`: what the set answers and counts.
* `CapabilitySet.find?_ofInterfaces_iff`: what is found among interfaces.
-/

namespace PluginHost.CapabilitySet

set_option autoImplicit false

variable {τ : Type}

/-- The set after these publications, one after the other. -/
def published (calls : List (Interface × τ)) : CapabilitySet τ :=
  calls.foldl (fun s call => s.provide call.1 call.2) empty

theorem entries_foldl_provide (calls : List (Interface × τ)) (s : CapabilitySet τ) :
    (calls.foldl (fun s call => s.provide call.1 call.2) s).entries = s.entries ++ calls := by
  induction calls generalizing s with
  | nil => exact (List.append_nil s.entries).symm
  | cons call rest ih =>
    rw [List.foldl_cons, ih, provide, List.append_assoc]
    rfl

@[simp] theorem entries_published (calls : List (Interface × τ)) : (published calls).entries = calls :=
  entries_foldl_provide calls empty

/-! ## Answers -/

/-- The first of the publications for `i` is that of `target`. -/
def First (calls : List (Interface × τ)) (i : Interface) (target : τ) : Prop :=
  ∃ before after, calls = before ++ (i, target) :: after ∧ ∀ call ∈ before, call.1 ≠ i

variable {calls : List (Interface × τ)} {i : Interface} {target : τ}

theorem find?_published_iff : (published calls).find? i = some target ↔ First calls i target := by
  rw [find?, entries_published, Option.map_eq_some_iff]
  constructor
  · rintro ⟨⟨j, t⟩, hfind, rfl⟩
    obtain ⟨hsame, before, after, hcalls, hbefore⟩ := List.find?_eq_some_iff_append.1 hfind
    obtain rfl : j = i := eq_of_beq hsame
    exact ⟨before, after, hcalls, fun call hcall heq => by simpa [heq] using hbefore call hcall⟩
  · rintro ⟨before, after, hcalls, hbefore⟩
    refine ⟨(i, target), List.find?_eq_some_iff_append.2 ⟨beq_self_eq_true i, before, after, hcalls, ?_⟩, rfl⟩
    intro call hcall
    simpa using hbefore call hcall

theorem find?_published_eq_none_iff :
    (published calls).find? i = none ↔ ∀ call ∈ calls, call.1 ≠ i := by
  simp [find?]

theorem First.append (h : First calls i target) (more : List (Interface × τ)) :
    First (calls ++ more) i target := by
  obtain ⟨before, after, rfl, hbefore⟩ := h
  exact ⟨before, after ++ more, by rw [List.append_assoc, List.cons_append], hbefore⟩

/-- What a set answers and counts after some publications, and what it still answers after more of them. -/
structure Recorded (calls : List (Interface × τ)) : Prop where
  found : ∀ i target, (published calls).find? i = some target ↔ First calls i target
  missing : ∀ i, (published calls).find? i = none ↔ ∀ call ∈ calls, call.1 ≠ i
  lasting : ∀ more i target, (published calls).find? i = some target →
    (published (calls ++ more)).find? i = some target
  size : (published calls).size = calls.length
  isEmpty : (published calls).isEmpty = true ↔ (published calls).size = 0

theorem recorded (calls : List (Interface × τ)) : Recorded calls where
  found _ _ := find?_published_iff
  missing _ := find?_published_eq_none_iff
  lasting more _ _ h := find?_published_iff.2 ((find?_published_iff.1 h).append more)
  size := by rw [CapabilitySet.size, entries_published]
  isEmpty := by rw [CapabilitySet.isEmpty, CapabilitySet.size, List.isEmpty_iff, List.length_eq_zero_iff]

/-! ## Interfaces as their own objects -/

theorem ofInterfaces_eq (is : List Interface) : ofInterfaces is = published (is.map fun i => (i, i)) := by
  rw [published, List.foldl_map, ofInterfaces]

/-- Of interfaces that are published with themselves as the objects, each one is found as itself. -/
theorem find?_ofInterfaces_iff {is : List Interface} {j : Interface} :
    (ofInterfaces is).find? i = some j ↔ j = i ∧ i ∈ is := by
  have hfound : ∀ {j}, (ofInterfaces is).find? i = some j → j = i ∧ i ∈ is := by
    intro j h
    rw [ofInterfaces_eq, find?_published_iff] at h
    obtain ⟨before, after, hcalls, -⟩ := h
    have hmem : (i, j) ∈ is.map fun i => (i, i) := hcalls ▸ List.mem_append_right before List.mem_cons_self
    obtain ⟨k, hk, heq⟩ := List.mem_map.1 hmem
    obtain ⟨rfl, rfl⟩ := Prod.mk.inj heq
    exact ⟨rfl, hk⟩
  refine ⟨hfound, ?_⟩
  rintro ⟨rfl, hmem⟩
  cases h : (ofInterfaces is).find? j with
  | none =>
    rw [ofInterfaces_eq, find?_published_eq_none_iff] at h
    exact absurd rfl (h (j, j) (List.mem_map_of_mem hmem))
  | some k => rw [(hfound h).1]

end PluginHost.CapabilitySet
