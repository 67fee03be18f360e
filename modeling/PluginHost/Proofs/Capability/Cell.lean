import PluginHost.Capability.Cell
import PluginHost.Proofs.Capability.Set
import PluginHost.Proofs.Table.Bag

/-!
# Cells that were given out

Until it is destroyed, a cell answers at its address as its set of capabilities did before it was given out,
whatever else is done in between. What was dropped and what is still held is always all that was ever given
out: nothing is dropped twice, and nothing is lost.

* `CellCall`, `CellReply`, `CellHeap.run`: calls on a heap of cells, and their replies.
* `CellHeap.perform_cases`: what a call can do.
* `CellHeap.find?_run`, `CellHeap.balance_run`: what a run keeps.
* `CellHeap.honoured`: what is answered at the address of a cell.
-/

namespace PluginHost

set_option autoImplicit false

open PluginHost.Table

variable {π τ : Type}

/-! ## Calls -/

inductive CellCall (π τ : Type) where
  | give (cell : Cell π τ)
  | cast (address : Option Nat) (i : Interface)
  | destroy (address : Option Nat)

inductive CellReply (π τ : Type) where
  | address (address : Option Nat)
  | capability (target : Option τ)
  | dropped (contents : List (Dropped π τ))

/-- A plugin and its capabilities, in the order in which they are dropped. -/
def Dropped.inOrder (plugin : π) (provided : List (Interface × τ)) : List (Dropped π τ) :=
  provided.map (fun e => .capability e.1 e.2) ++ [.plugin plugin]

def Cell.contents (cell : Cell π τ) : List (Dropped π τ) :=
  Dropped.inOrder cell.plugin cell.capabilities.entries

def CellCall.gives : CellCall π τ → List (Dropped π τ)
  | .give cell => cell.contents
  | .cast _ _ => []
  | .destroy _ => []

def CellReply.drops : CellReply π τ → List (Dropped π τ)
  | .address _ => []
  | .capability _ => []
  | .dropped contents => contents

namespace CellHeap

def perform (heap : CellHeap π τ) : CellCall π τ → CellReply π τ × CellHeap π τ
  | .give cell => (.address (heap.give cell).1, (heap.give cell).2)
  | .cast address i => (.capability (heap.cast? address i), heap)
  | .destroy address => (.dropped (heap.destroy address).1, (heap.destroy address).2)

/-- The replies to some calls, one after the other, and the heap after them. -/
def run (heap : CellHeap π τ) : List (CellCall π τ) → List (CellReply π τ) × CellHeap π τ
  | [] => ([], heap)
  | call :: rest =>
    let now := heap.perform call
    let later := now.2.run rest
    (now.1 :: later.1, later.2)

variable {heap : CellHeap π τ} {a : Nat} {cell : Cell π τ}

theorem destroy_of_find? (h : heap.cells.find? a = some cell) :
    heap.destroy (some a) = (cell.contents, ⟨heap.cells.erase a, heap.fresh⟩) := by
  have hat : heap.at? (some a) = some cell := h
  simp only [destroy, hat, Cell.contents, Dropped.inOrder]

theorem destroy_of_vacant (h : heap.cells.find? a = none) : heap.destroy (some a) = ([], heap) := by
  have hat : heap.at? (some a) = none := h
  simp only [destroy, hat]

/-- A call gives a cell to the next address, or destroys a cell, or does nothing to the heap. -/
theorem perform_cases (heap : CellHeap π τ) (call : CellCall π τ) :
    (∃ cell, call = .give cell ∧
      heap.perform call = (.address (some heap.fresh), ⟨heap.cells.put heap.fresh cell, heap.fresh + 1⟩)) ∨
    (∃ a cell, call = .destroy (some a) ∧ heap.cells.find? a = some cell ∧
      heap.perform call = (.dropped cell.contents, ⟨heap.cells.erase a, heap.fresh⟩)) ∨
    call.gives = [] ∧ (heap.perform call).1.drops = [] ∧ (heap.perform call).2 = heap := by
  cases call with
  | give cell => exact .inl ⟨cell, rfl, rfl⟩
  | cast address i => exact .inr (.inr ⟨rfl, rfl, rfl⟩)
  | destroy address =>
    cases address with
    | none => exact .inr (.inr ⟨rfl, rfl, rfl⟩)
    | some a =>
      cases h : heap.cells.find? a with
      | none =>
        rw [perform, destroy_of_vacant h]
        exact .inr (.inr ⟨rfl, rfl, rfl⟩)
      | some cell =>
        refine .inr (.inl ⟨a, cell, rfl, h, ?_⟩)
        rw [perform, destroy_of_find? h]

/-! ## What a call keeps -/

/-- Every cell has an address of its own, and the next address is a new one. -/
structure Tidy (heap : CellHeap π τ) : Prop where
  distinct : heap.cells.Distinct
  below : ∀ a cell, heap.cells.find? a = some cell → a < heap.fresh

theorem tidy_empty : (empty : CellHeap π τ).Tidy := ⟨distinct_nil, fun _ _ h => by cases h⟩

theorem Tidy.vacant (h : heap.Tidy) : heap.cells.find? heap.fresh = none := by
  cases hfind : heap.cells.find? heap.fresh with
  | none => rfl
  | some cell => exact absurd (h.below _ _ hfind) (Nat.lt_irrefl _)

theorem Tidy.perform (h : heap.Tidy) (call : CellCall π τ) : (heap.perform call).2.Tidy := by
  rcases heap.perform_cases call with ⟨cell, -, heq⟩ | ⟨a, cell, -, -, heq⟩ | ⟨-, -, heq⟩
  · rw [heq]
    refine ⟨h.distinct.put _ _, fun b found hfind => ?_⟩
    rw [find?_put] at hfind
    split at hfind
    · next hb => exact eq_of_beq hb ▸ Nat.lt_succ_self _
    · exact Nat.lt_succ_of_lt (h.below b found hfind)
  · rw [heq]
    refine ⟨h.distinct.erase a, fun b found hfind => ?_⟩
    rw [find?_erase] at hfind
    split at hfind
    · cases hfind
    · exact h.below b found hfind
  · rw [heq]
    exact h

/-- A cell stays at its address through every call that does not destroy it. -/
theorem find?_perform (h : heap.Tidy) (hcell : heap.cells.find? a = some cell) {call : CellCall π τ}
    (hcall : call ≠ .destroy (some a)) : (heap.perform call).2.cells.find? a = some cell := by
  rcases heap.perform_cases call with ⟨given, -, heq⟩ | ⟨b, other, hdestroy, -, heq⟩ | ⟨-, -, heq⟩
  · have hne : a ≠ heap.fresh := Nat.ne_of_lt (h.below a cell hcell)
    rw [heq, find?_put_of_ne _ _ hne, hcell]
  · have hne : ¬ (b == a) = true := fun hb => hcall (eq_of_beq hb ▸ hdestroy)
    rw [heq, find?_erase, if_neg hne, hcell]
  · rw [heq, hcell]

/-- What the cells of a heap hold. -/
def contents (heap : CellHeap π τ) : Multiset (Dropped π τ) :=
  heap.cells.bag.bind fun cell => ↑cell.contents

theorem balance_perform (h : heap.Tidy) (call : CellCall π τ) :
    ↑(heap.perform call).1.drops + (heap.perform call).2.contents = heap.contents + ↑call.gives := by
  rcases heap.perform_cases call with ⟨cell, rfl, heq⟩ | ⟨a, cell, rfl, hfind, heq⟩ | ⟨hgives, hdrops, heq⟩
  · rw [heq, contents, bag_put_of_find?_eq_none h.distinct cell h.vacant, Multiset.cons_bind]
    simp only [CellReply.drops, CellCall.gives, Multiset.coe_nil, zero_add, contents, add_comm]
  · rw [heq, contents, contents, bag_of_find? h.distinct hfind, Multiset.cons_bind]
    simp only [CellReply.drops, CellCall.gives, Multiset.coe_nil, add_zero]
  · rw [hgives, hdrops, heq, add_comm]

/-! ## What a run keeps -/

theorem Tidy.run (h : heap.Tidy) (calls : List (CellCall π τ)) : (heap.run calls).2.Tidy := by
  induction calls generalizing heap with
  | nil => exact h
  | cons call rest ih => exact ih (h.perform call)

theorem find?_run (h : heap.Tidy) (hcell : heap.cells.find? a = some cell) {calls : List (CellCall π τ)}
    (hcalls : ∀ call ∈ calls, call ≠ .destroy (some a)) :
    (heap.run calls).2.cells.find? a = some cell := by
  induction calls generalizing heap with
  | nil => exact hcell
  | cons call rest ih =>
    exact ih (h.perform call) (find?_perform h hcell (hcalls call List.mem_cons_self))
      fun call' hcall' => hcalls call' (List.mem_cons_of_mem call hcall')

/-- What a run drops and what is held after it is what was held before it and what it gives out. -/
theorem balance_run (h : heap.Tidy) (calls : List (CellCall π τ)) :
    ↑((heap.run calls).1.flatMap CellReply.drops) + (heap.run calls).2.contents =
      heap.contents + ↑(calls.flatMap CellCall.gives) := by
  induction calls generalizing heap with
  | nil => rw [run, List.flatMap_nil, List.flatMap_nil, add_comm]
  | cons call rest ih =>
    have hnow := balance_perform h call
    have hlater := ih (h.perform call)
    rw [run, List.flatMap_cons, List.flatMap_cons, ← Multiset.coe_add, ← Multiset.coe_add, add_assoc, hlater,
      ← add_assoc, hnow, add_assoc]

/-- The reply to a call is that of the heap after the calls before it. -/
theorem reply_run (heap : CellHeap π τ) {calls : List (CellCall π τ)} {k : Nat} {call : CellCall π τ}
    (h : calls[k]? = some call) :
    (heap.run calls).1[k]? = some ((heap.run (calls.take k)).2.perform call).1 := by
  induction calls generalizing heap k with
  | nil => cases h
  | cons now rest ih =>
    cases k with
    | zero =>
      obtain rfl : now = call := Option.some.inj h
      rfl
    | succ k => exact ih (heap.perform now).2 h

/-! ## The address of a cell -/

/-- What is answered from now on at the address `a`, of a cell of `plugin` that published `provided`. -/
structure Honours (heap : CellHeap π τ) (a : Nat) (plugin : π) (provided : List (Interface × τ)) : Prop where
  /-- Until the cell is destroyed every cast answers as the set did. -/
  cast : ∀ (calls : List (CellCall π τ)) (k : Nat) i, calls[k]? = some (.cast (some a) i) →
    (∀ call ∈ calls.take k, call ≠ .destroy (some a)) →
    (heap.run calls).1[k]? = some (.capability ((CapabilitySet.published provided).find? i))
  castNull : ∀ (calls : List (CellCall π τ)) (k : Nat) i, calls[k]? = some (.cast none i) →
    (heap.run calls).1[k]? = some (.capability none)
  destroy : ∀ (calls : List (CellCall π τ)) (k : Nat), calls[k]? = some (.destroy (some a)) →
    (∀ call ∈ calls.take k, call ≠ .destroy (some a)) →
    (heap.run calls).1[k]? = some (.dropped (Dropped.inOrder plugin provided))
  destroyNull : ∀ (calls : List (CellCall π τ)) (k : Nat), calls[k]? = some (.destroy none) →
    (heap.run calls).1[k]? = some (.dropped []) ∧
      ((heap.run (calls.take k)).2.perform (.destroy none)).2 = (heap.run (calls.take k)).2
  /-- What was held or is given out is still held or was dropped, once. -/
  balance : ∀ calls : List (CellCall π τ),
    ↑((heap.run calls).1.flatMap CellReply.drops) + (heap.run calls).2.contents =
      heap.contents + ↑(calls.flatMap CellCall.gives)

theorem honours_of_find? (h : heap.Tidy) {plugin : π} {provided : List (Interface × τ)}
    (hcell : heap.cells.find? a = some ⟨plugin, .published provided⟩) : heap.Honours a plugin provided where
  cast calls k i hk hcalls := by
    have hat : (heap.run (calls.take k)).2.at? (some a) = some ⟨plugin, .published provided⟩ :=
      find?_run h hcell hcalls
    rw [reply_run heap hk, perform, cast?, hat, Option.bind_some]
  castNull calls k i hk := by rw [reply_run heap hk, perform, cast?_null]
  destroy calls k hk hcalls := by
    rw [reply_run heap hk, perform, destroy_of_find? (find?_run h hcell hcalls), Cell.contents,
      CapabilitySet.entries_published]
  destroyNull calls k hk := by
    rw [reply_run heap hk, perform, destroy_null]
    exact ⟨rfl, rfl⟩
  balance calls := balance_run h calls

theorem contents_give (h : heap.Tidy) (cell : Cell π τ) :
    (heap.give cell).2.contents = heap.contents + ↑cell.contents := by
  have hbalance : 0 + (heap.give cell).2.contents = heap.contents + ↑cell.contents :=
    balance_perform h (.give cell)
  rwa [zero_add] at hbalance

/-- Whatever was done before, a cell is given out at an address and adds what it holds to the heap. From then on
it answers there as its set of capabilities does, and it is dropped once. -/
theorem honoured (earlier : List (CellCall π τ)) (plugin : π) (provided : List (Interface × τ)) :
    CapabilitySet.Recorded provided ∧
    ∃ a heap, (empty.run earlier).2.give ⟨plugin, .published provided⟩ = (some a, heap) ∧
      heap.contents = (empty.run earlier).2.contents + ↑(Dropped.inOrder plugin provided) ∧
      heap.Honours a plugin provided := by
  have htidy : (empty.run earlier).2.Tidy := tidy_empty.run earlier
  have hcontents := contents_give htidy ⟨plugin, .published provided⟩
  rw [Cell.contents, CapabilitySet.entries_published] at hcontents
  refine ⟨CapabilitySet.recorded provided, _, _, rfl, hcontents, ?_⟩
  exact honours_of_find? (htidy.perform (.give _)) (find?_put_self _ _ _)

/-- One interface published twice. -/
def doubled : List (Interface × Nat) := [(⟨"Name", "shapes::Name"⟩, 0), (⟨"Name", "shapes::Name"⟩, 1)]

/-- Casts at the address of the first cell and at null, another cell, and then the first one is destroyed. -/
def visits : List (CellCall String Nat) :=
  [.cast (some 0) ⟨"Name", "shapes::Name"⟩, .give ⟨"other", .empty⟩, .destroy none,
    .cast none ⟨"Name", "shapes::Name"⟩, .cast (some 0) ⟨"Name", "shapes::Name"⟩, .destroy (some 0)]

theorem honoured_of_doubled : ∃ heap : CellHeap String Nat,
    empty.give ⟨"first", .published doubled⟩ = (some 0, heap) ∧
    (∀ call ∈ visits.take 5, call ≠ .destroy (some 0)) ∧
    (heap.run visits).1[4]? = some (.capability (some 0)) ∧
    (heap.run visits).1[5]? = some (.dropped [.capability ⟨"Name", "shapes::Name"⟩ 0,
      .capability ⟨"Name", "shapes::Name"⟩ 1, .plugin "first"]) := by
  obtain ⟨-, a, heap, hgive, -, hhonours⟩ := honoured [] "first" doubled
  obtain rfl : a = 0 := (Option.some.inj (Prod.mk.inj hgive).1).symm
  have hbefore : ∀ call ∈ visits.take 5, call ≠ .destroy (some 0) := by simp [visits]
  have hcast := hhonours.cast visits 4 ⟨"Name", "shapes::Name"⟩ rfl (by simp [visits])
  exact ⟨heap, hgive, hbefore, hcast, hhonours.destroy visits 5 rfl hbefore⟩

end CellHeap

end PluginHost
