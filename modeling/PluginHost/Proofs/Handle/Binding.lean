import PluginHost.Handle.Holder

/-!
# Bound handles

The slots of a specialized handle repeat what the handle inside would find. A slot is chosen by the type
that is asked for and was filled under its name, so a query that is answered from a slot gives what a
query by name gives, and calls nothing.

* `Specialized.Bound`: every slot holds what the handle inside finds for its candidate.
* `Specialized.Bound.query_fst`: a query finds what the handle inside finds.
* `Specialized.query_snd`: a query for a candidate calls nothing.
-/

namespace PluginHost

set_option autoImplicit false

/-! ## Slots -/

namespace Specialized

/-- Every slot holds what the handle inside finds for its candidate. -/
def Bound (s : Specialized) : Prop :=
  s.slots = s.candidates.interfaces.map fun c => s.handle.find? c.name

theorem bound_empty (candidates : Candidates) : (empty candidates).Bound := rfl

theorem bound_bind (handle : Handle) (candidates : Candidates) (h : Host) :
    (bind handle candidates h).1.Bound :=
  resolveAll_fst handle h candidates.interfaces

theorem Bound.slots_of_isEmpty {s : Specialized} (hb : s.Bound) (he : s.handle.isEmpty = true)
    {p : Option Pointer} (hp : p ∈ s.slots) : p = none := by
  rw [hb] at hp
  obtain ⟨c, -, rfl⟩ := List.mem_map.1 hp
  have hnone : s.handle.held = none := by simpa [Handle.isEmpty] using he
  simp [Handle.find?, hnone]

/-- The candidate at the place of an interface is that interface. -/
theorem getElem?_of_position {candidates : Candidates} {i : Interface} {slot : Nat}
    (h : candidates.position i = some slot) : candidates.interfaces[slot]? = some i := by
  obtain ⟨hlt, hsame, -⟩ := List.findIdx?_eq_some_iff_getElem.1 h
  rw [List.getElem?_eq_getElem hlt, eq_of_beq hsame]

theorem Bound.query_fst {s : Specialized} (hb : s.Bound) (h : Host) (i : Interface) :
    (s.query h i).1 = s.handle.find? i.name := by
  unfold query
  split
  · next slot hslot =>
    rw [hb, List.getElem?_map, getElem?_of_position hslot]
    rfl
  · exact s.handle.query_fst h i.name

theorem query_snd {s : Specialized} {i : Interface} (hc : s.candidates.covers i = true) (h : Host) :
    (s.query h i).2 = h := by
  obtain ⟨slot, hslot⟩ := Option.isSome_iff_exists.1 hc
  simp only [query, hslot]

theorem resolveAll_empty (h : Host) (interfaces : List Interface) :
    resolveAll .empty h interfaces = (interfaces.map fun _ => none, h) := by
  induction interfaces with
  | nil => rfl
  | cons i rest ih =>
    have hquery : Handle.empty.query h i.name = (none, h) := rfl
    simp only [resolveAll, hquery, ih, List.map_cons]

end Specialized

/-! ## Holders of either form -/

namespace Holder

/-- A specialized handle is bound; there is nothing to say of a generic one. -/
def Bound : Holder → Prop
  | .generic _ => True
  | .specialized s => s.Bound

theorem Bound.query_fst {x : Holder} (hb : x.Bound) (h : Host) (i : Interface) :
    (x.query h i).1 = x.handle.find? i.name := by
  cases x with
  | generic handle => exact handle.query_fst h i.name
  | specialized s => exact Specialized.Bound.query_fst hb h i

theorem bound_empty (candidates : Option Candidates) : (empty candidates).Bound := by
  cases candidates with
  | none => exact trivial
  | some c => exact Specialized.bound_empty c

theorem bound_emptied (x : Holder) : x.emptied.Bound := by
  cases x with
  | generic handle => exact trivial
  | specialized s => exact Specialized.bound_empty s.candidates

theorem bound_make (handle : Handle) (candidates : Option Candidates) (h : Host) :
    (make handle candidates h).1.Bound := by
  cases candidates with
  | none => exact trivial
  | some c => exact Specialized.bound_bind handle c h

@[simp] theorem make_handle (handle : Handle) (candidates : Option Candidates) (h : Host) :
    (make handle candidates h).1.handle = handle := by
  cases candidates <;> rfl

theorem make_empty (candidates : Option Candidates) (h : Host) :
    make .empty candidates h = (empty candidates, h) := by
  cases candidates with
  | none => rfl
  | some c => simp only [make, empty, Specialized.bind, Specialized.empty, Specialized.resolveAll_empty]

end Holder

/-! ## Queries and what is alive -/

theorem Handle.instances_query (handle : Handle) (h : Host) (interface : String) :
    (handle.query h interface).2.instances = h.instances := by
  unfold Handle.query
  split
  · rfl
  · simp only [Host.resolve]
    split <;> rfl

theorem Holder.instances_query (x : Holder) (h : Host) (i : Interface) :
    (x.query h i).2.instances = h.instances := by
  cases x with
  | generic handle => exact handle.instances_query h i.name
  | specialized s =>
    simp only [Holder.query, Specialized.query]
    split
    · rfl
    · exact s.handle.instances_query h i.name

/-- What a use answers depends on the instances alone. -/
theorem Host.use_fst_congr {h h' : Host} (hi : h.instances = h'.instances) (x : Instance) (p : Pointer)
    (arg : Argument) : (h.use x p arg).1 = (h'.use x p arg).1 := by
  unfold Host.use
  rw [hi]
  split <;> rfl

end PluginHost
