import PluginHost.Handle.Holder
import PluginHost.Handle.Shared

/-!
# Identity

Handles are compared by the instance behind them, and shared capabilities by where they are. A place belongs
to one instance, so both come to the same for capabilities of one interface.

* `Handle.compare_eq_iff`, `Handle.hash_eq_of_same`: order and hash go with equality.
* `Handle.address_eq_iff`: handles are in the same place if they hold the same instance.
* `Shared.Found`, `Shared.same_iff`: shared capabilities that were looked for.
-/

namespace PluginHost

set_option autoImplicit false

/-! ## Handles -/

namespace Handle

variable {a b : Handle}

theorem compare_eq_iff : a.compare b = .eq ↔ a.same b = true := by
  rw [compare, same, Nat.compare_eq_eq, beq_iff_eq]

instance : Std.TransCmp Handle.compare :=
  inferInstanceAs (Std.TransCmp (compareOn identity))

theorem hash_eq_of_same (h : a.same b = true) : a.hash = b.hash := by
  have hidentity : a.identity = b.identity := beq_iff_eq.1 h
  rw [hash, hash, hidentity]

theorem identity_of_held {x : Instance} (h : a.held = some x) : a.identity = x.id := by
  rw [identity, h]

theorem identity_of_isEmpty (h : a.isEmpty = true) : a.identity = 0 := by
  have hnone : a.held = none := Option.isNone_iff_eq_none.1 h
  rw [identity, hnone]

theorem held_of_isEmpty (h : a.isEmpty = false) : ∃ x, a.held = some x := by
  cases hx : a.held with
  | none => simp [isEmpty, hx] at h
  | some x => exact ⟨x, rfl⟩

theorem held_eq_iff : a.held = b.held ↔
    a.isEmpty = true ∧ b.isEmpty = true ∨ ∃ x, a.held = some x ∧ b.held = some x := by
  simp only [isEmpty, Option.isNone_iff_eq_none]
  cases a.held with
  | none => simp [eq_comm]
  | some x => simp [eq_comm]

/-- Where the instance of a handle is, for some places of all instances; zero stands for nowhere. -/
def address (place : Nat → Nat) (handle : Handle) : Nat := handle.held.elim 0 fun x => place x.id

theorem address_id : a.address id = a.identity := by
  rw [address, identity]
  cases a.held <;> rfl

/-- When the instances have places of their own, none of them nowhere, the handles that are in the same
place are the empty ones and those that hold the same. -/
theorem address_eq_iff {place : Nat → Nat} (hzero : ∀ x, a.held = some x ∨ b.held = some x → place x.id ≠ 0)
    (hinjective : ∀ x y, a.held = some x → b.held = some y → place x.id = place y.id → x = y) :
    a.address place = b.address place ↔ a.held = b.held := by
  refine ⟨fun h => ?_, fun h => by rw [address, address, h]⟩
  cases ha : a.held with
  | none =>
    cases hb : b.held with
    | none => rfl
    | some y =>
      rw [address, address, ha, hb] at h
      exact absurd h.symm (hzero y (.inr hb))
  | some x =>
    cases hb : b.held with
    | none =>
      rw [address, address, ha, hb] at h
      exact absurd h (hzero x (.inl ha))
    | some y =>
      rw [address, address, ha, hb] at h
      rw [hinjective x y ha hb h]

end Handle

instance : Std.TransCmp Holder.compare :=
  inferInstanceAs (Std.TransCmp (compareOn fun x : Holder => x.handle.identity))

/-! ## Places -/

/-- The instance that a place belongs to. -/
def Pointer.instanceId : Pointer → Nat
  | .object id => id
  | .capability id _ => id

theorem Instance.instanceId_of_find? {x : Instance} {s : String} {p : Pointer} (h : x.find? s = some p) :
    p.instanceId = x.id := by
  obtain ⟨c, -, hfollow⟩ := Option.bind_eq_some_iff.1 h
  cases c with
  | identity => rw [← Option.some.inj hfollow, Pointer.instanceId]
  | cast i =>
    obtain ⟨j, -, rfl⟩ := Option.map_eq_some_iff.1 hfollow
    rfl

/-! ## Shared capabilities -/

namespace Shared

/-- The capability is the one that its owner finds for the interface. -/
def Found (s : Shared) : Prop := s.owner.find? s.interface.name = some s.pointer

variable {s t : Shared}

/-- Of one interface an instance finds one capability, and different instances find different ones. -/
theorem same_iff (hs : s.Found) (ht : t.Found) (hi : s.interface = t.interface)
    (hinjective : s.owner.id = t.owner.id → s.owner = t.owner) :
    s.same t = true ↔ s.handle.same t.handle = true := by
  have hidentity : s.handle.same t.handle = true ↔ s.owner.id = t.owner.id := by
    rw [Handle.same, beq_iff_eq]
    rfl
  rw [same, beq_iff_eq, hidentity]
  constructor
  · intro hpointer
    rw [← Instance.instanceId_of_find? hs, ← Instance.instanceId_of_find? ht, hpointer]
  · intro hid
    have hfound : s.owner.find? s.interface.name = some t.pointer := by
      rw [hinjective hid, hi]
      exact ht
    exact Option.some.inj (hs.symm.trans hfound)

end Shared

end PluginHost
