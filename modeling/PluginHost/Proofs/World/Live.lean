import PluginHost.Proofs.World.Residency

/-!
# Live instances

Every instance that lives is held, and is counted once for its library. So the live counts follow from the
bag of what is held: as long as that bag stays the same, so do they.

* `World.live_of_reachable`: the live count of a library.
* `World.held_instantiate`: what is held after an instance was made.
-/

namespace PluginHost.World

set_option autoImplicit false

open PluginHost.Table

namespace Sound

variable {births : Nat → Prop} {earlier : Host} {w : World}

/-- The live count of a library is the number of its instances that are held, each counted once. -/
theorem live_eq (hs : Sound births earlier w 0) (l : Library) :
    w.host.live l = (w.held.dedup.map fun x => x.library.id).count l.id := by
  rw [hs.host.balanced.live_eq, zero_add]

end Sound

theorem live_of_reachable {w : World} (hw : Reachable w) (l : Library) :
    w.host.live l = (w.held.dedup.map fun x => x.library.id).count l.id :=
  (sound_of_reachable (fun _ => False) hw).live_eq l

/-! ## What is held -/

/-- A handle does not count for a library that its instance is not of. -/
theorem count_owned_add {handle : Handle} {rest : Multiset Instance} {id : Nat}
    (hother : ∀ x, handle.held = some x → x.library.id ≠ id) :
    ((handle.owned + rest).dedup.map fun x => x.library.id).count id =
      (rest.dedup.map fun x => x.library.id).count id := by
  cases hx : handle.held with
  | none =>
    have howned : handle.owned = 0 := by rw [Handle.owned, hx]; rfl
    rw [howned, zero_add]
  | some x =>
    have howned : handle.owned = {x} := by rw [Handle.owned, hx]; rfl
    rw [howned, Multiset.singleton_add]
    by_cases hmem : x ∈ rest
    · rw [Multiset.dedup_cons_of_mem hmem]
    · rw [Multiset.dedup_cons_of_notMem hmem, Multiset.map_cons,
        Multiset.count_cons_of_ne (Ne.symm (hother x hx))]

section Held

variable {w : World}

theorem held_keep (hd : w.handles.Distinct) (name : String) (x : Holder) :
    (w.keep name x).held =
      x.handle.owned + (heldBy (w.handles.erase name) + w.shares.bag.map Shared.owner) := by
  rw [← add_assoc]
  exact congrArg (· + w.shares.bag.map Shared.owner) (bind_put hd _ name x)

theorem held_dropHandle (w : World) (name : String) :
    (w.dropHandle name).2.held = heldBy (w.handles.erase name) + w.shares.bag.map Shared.owner := by
  unfold dropHandle
  split
  · next hnone => rw [held, erase_of_find?_eq_none hnone]
  · rfl

theorem held_of_find? (hd : w.handles.Distinct) {name : String} {x : Holder}
    (hx : w.handles.find? name = some x) :
    w.held = x.handle.owned + (w.dropHandle name).2.held := by
  rw [held_dropHandle, ← add_assoc]
  exact congrArg (· + w.shares.bag.map Shared.owner) (bind_of_find? hd _ hx)

/-- Beside the new instance the same is held as if the handle that it takes the place of were dropped. -/
theorem held_instantiate (hd : w.handles.Distinct) {loader : String} {L : Loader}
    (hL : w.loaders.find? loader = some L) (plugin goal : String) (candidates : Option Candidates) :
    (w.instantiate loader plugin goal candidates).2.held =
      (L.instantiate w.host plugin).1.owned + (w.dropHandle goal).2.held := by
  simp only [World.instantiate, hL]
  refine (held_keep hd goal _).trans ?_
  rw [Holder.make_handle, held_dropHandle]

end Held

end PluginHost.World
