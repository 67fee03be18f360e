import PluginHost.Proofs.Handle.Identity
import PluginHost.Proofs.World.Delivery
import PluginHost.Proofs.World.Evolution
import PluginHost.Proofs.World.Failure
import PluginHost.Proofs.World.Frame
import PluginHost.Proofs.World.Query
import PluginHost.Proofs.World.Residency

/-!
# Identity of handles

However the handles of a program came about, by copies, moves, bindings and shared capabilities, they are
equal exactly when they are empty together or hold the same instance. This does not depend on where instances
are, as long as no two that live are in the same place.

* `World.Has`: the handles of a program, with those that it can make of what it keeps.
* `World.Placement`: places for the instances that live and for their capabilities.
* `World.shares_after`: where a shared capability comes from.
* `World.Identified`, `World.identified`: identity in every reachable world.
-/

namespace PluginHost

set_option autoImplicit false

open PluginHost.Table

/-- The handle that the action copies, moves or binds, and what the result is kept under. -/
def Action.copy? : Action → Option (String × String)
  | .cloneHandle source goal => some (source, goal)
  | .takeHandle source goal => some (source, goal)
  | .specialize source goal _ => some (source, goal)
  | .generalize source goal => some (source, goal)
  | _ => none

/-- A new instance has the next identity. -/
theorem Loader.id_of_instantiate {L : Loader} {host : Host} {plugin : String} {x : Instance}
    (h : (L.instantiate host plugin).1.held = some x) : x.id = host.fresh := by
  cases he : L.index.find? (Name.normalize plugin) with
  | none =>
    have hunknown : L.pluginInfo plugin = none := by rw [pluginInfo, he]; rfl
    rw [instantiate_of_unknown hunknown] at h
    cases h
  | some e =>
    rw [instantiate_of_index he] at h
    split at h
    · cases h
    · rw [← Option.some.inj h]

namespace World

variable {w : World}

/-! ## Handles and instances -/

/-- The program keeps the handle, or can take it from a shared capability, or make it empty. -/
inductive Has (w : World) : Holder → Prop where
  | kept {name : String} {x : Holder} (hx : w.handles.find? name = some x) : Has w x
  | shared {name : String} {s : Shared} (hs : w.shares.find? name = some s) : Has w (.generic s.handle)
  | empty (candidates : Option Candidates) : Has w (.empty candidates)

theorem Has.mem_held {x : Holder} {y : Instance} (hx : w.Has x) (hy : x.handle.held = some y) :
    y ∈ w.held := by
  cases hx with
  | kept hx => exact owned_subset_held hx (Handle.mem_owned.2 hy)
  | shared hs => exact Option.some.inj hy ▸ owner_mem_held hs
  | empty candidates => cases candidates <;> cases hy

theorem sound_since_start (hw : Reachable w) :
    ∃ files, Sound (fun _ => True) (World.start files).host w 0 := by
  induction hw with
  | start files => exact ⟨files, sound_start _ files⟩
  | step a _ ih =>
    obtain ⟨files, hs⟩ := ih
    exact ⟨files, hs.after a fun _ _ => trivial⟩

theorem fresh_pos (hw : Reachable w) : 0 < w.host.fresh := by
  obtain ⟨files, hs⟩ := sound_since_start hw
  exact hs.host.follows.fresh

/-- No instance has the identity that stands for none. -/
theorem id_ne_zero (hw : Reachable w) {x : Instance} (hx : w.Lives x) : x.id ≠ 0 := by
  obtain ⟨files, hs⟩ := sound_since_start hw
  obtain ⟨v, hv, -⟩ := hx
  intro hzero
  have hearlier : x.id < (World.start files).host.fresh := hzero ▸ Nat.one_pos
  obtain ⟨v₀, hv₀, -⟩ := hs.host.follows.survived _ v hearlier hv
  cases hv₀

theorem eq_of_id_eq {x y : Instance} (hx : w.Lives x) (hy : w.Lives y) (hid : x.id = y.id) : x = y := by
  obtain ⟨v, hv, rfl⟩ := hx
  obtain ⟨v', hv', rfl⟩ := hy
  rw [hid, hv', Option.some.injEq] at hv
  rw [hv]

/-- Places that are not null, with no two instances that live in the same place, nor any of their
capabilities. -/
structure Placement (w : World) where
  place : Nat → Nat
  capability : Pointer → Nat
  nonzero : ∀ x, w.Lives x → place x.id ≠ 0
  injective : ∀ x y, w.Lives x → w.Lives y → place x.id = place y.id → x = y
  apart : ∀ x y s t p q, w.Lives x → w.Lives y → x.find? s = some p → y.find? t = some q →
    capability p = capability q → x = y

/-- Every instance in the place of its identity, and its capabilities there too. -/
def placement (hw : Reachable w) : w.Placement where
  place := id
  capability := Pointer.instanceId
  nonzero := fun _ hx => id_ne_zero hw hx
  injective := fun _ _ hx hy hid => eq_of_id_eq hx hy hid
  apart := fun x y s t p q hx hy hp hq h => by
    refine eq_of_id_eq hx hy ?_
    rw [← Instance.instanceId_of_find? hp, ← Instance.instanceId_of_find? hq, h]

section Placed

variable (hw : Reachable w) {x y : Holder}

include hw

theorem Has.lives (hx : w.Has x) {i : Instance} (hi : x.handle.held = some i) : w.Lives i :=
  (sound_of_reachable (fun _ => False) hw).lives_iff.2 (hx.mem_held hi)

theorem address_eq_iff (P : w.Placement) (hx : w.Has x) (hy : w.Has y) :
    x.handle.address P.place = y.handle.address P.place ↔ x.handle.held = y.handle.held := by
  refine Handle.address_eq_iff (fun i hi => P.nonzero i ?_) fun i j hi hj => ?_
  · rcases hi with hi | hi
    · exact hx.lives hw hi
    · exact hy.lives hw hi
  · exact P.injective i j (hx.lives hw hi) (hy.lives hw hj)

theorem same_iff (hx : w.Has x) (hy : w.Has y) : x.same y = true ↔ x.handle.held = y.handle.held := by
  rw [← address_eq_iff hw (placement hw) hx hy, Holder.same, Handle.same, beq_iff_eq]
  exact iff_of_eq (congrArg₂ Eq Handle.address_id.symm Handle.address_id.symm)

/-- Empty handles are in front of all others, wherever these are. -/
theorem address_lt (P : w.Placement) (hy : w.Has y) (hempty : x.handle.isEmpty = true)
    (hfull : y.handle.isEmpty = false) : x.handle.address P.place < y.handle.address P.place := by
  obtain ⟨i, hi⟩ := Handle.held_of_isEmpty hfull
  have hnone : x.handle.held = none := Option.isNone_iff_eq_none.1 hempty
  rw [Handle.address, Handle.address, hnone, hi]
  exact Nat.pos_of_ne_zero (P.nonzero i (hy.lives hw hi))

theorem compare_of_isEmpty (hy : w.Has y) (hempty : x.handle.isEmpty = true)
    (hfull : y.handle.isEmpty = false) : x.compare y = .lt := by
  have hlt := address_lt hw (placement hw) hy hempty hfull
  rw [placement, Handle.address_id, Handle.address_id] at hlt
  exact Nat.compare_eq_lt.2 hlt

end Placed

/-! ## Shared capabilities -/

theorem find?_shared {source goal : String} {i : Interface} {s : Shared}
    (h : (w.share source i goal).1 = some (some s)) :
    (w.after (.share source i goal)).shares.find? goal = some s ∧
      ∃ x, w.handles.find? source = some x ∧ x.handle.held = some s.owner ∧
        (x.query w.host s.interface).1 = some s.pointer := by
  cases hx : w.handles.find? source with
  | none => simp [share, onHandle, hx] at h
  | some x =>
    simp only [after, perform, Answer.ofOption, share, onHandle, hx] at h ⊢
    split at h
    · next owner p howner hp =>
      obtain rfl : (⟨owner, p, i⟩ : Shared) = s := by simpa using h
      exact ⟨by simp only [find?_keepShared, if_true], x, rfl, howner, hp⟩
    · simp at h

/-- A shared capability that is kept after an action was kept before, maybe under another name, or was found
by a handle. -/
theorem shares_after {a : Action} {name : String} {s : Shared}
    (h : (w.after a).shares.find? name = some s) :
    (∃ source, w.shares.find? source = some s) ∨
      ∃ source x, w.handles.find? source = some x ∧ x.handle.held = some s.owner ∧
        (x.query w.host s.interface).1 = some s.pointer := by
  by_cases ha : w.AssignsShared a name
  · cases a with
    | share source i goal =>
      obtain ⟨rfl, s', hs'⟩ := ha
      obtain ⟨hkept, x, hx⟩ := find?_shared hs'
      rw [hkept, Option.some.injEq] at h
      exact .inr ⟨source, x, h ▸ hx⟩
    | cloneShared source goal =>
      obtain ⟨rfl, hsome⟩ := ha
      obtain ⟨s', hs'⟩ := Option.isSome_iff_exists.1 hsome
      simp only [after, perform, Answer.ofOption, cloneShared, hs', find?_keepShared, if_true] at h
      exact .inl ⟨source, h ▸ hs'⟩
    | dropShared goal =>
      obtain rfl : goal = name := ha
      simp only [after, perform, Answer.of, dropShared] at h
      split at h
      · exact .inl ⟨goal, h⟩
      · simp at h
    | _ => exact ha.elim
  · exact .inl ⟨name, (find?_shares_after ha).symm.trans h⟩

theorem found_of_reachable (hw : Reachable w) {name : String} {s : Shared}
    (hs : w.shares.find? name = some s) : s.Found := by
  induction hw generalizing name with
  | start files => cases hs
  | @step w a hw ih =>
    obtain ⟨source, hkept⟩ | ⟨source, x, hx, hheld, hquery⟩ := shares_after hs
    · exact ih hkept
    · rw [(bound_of_reachable hw source x hx).query_fst, Handle.find?, hheld] at hquery
      exact hquery

theorem shared_same_iff (hw : Reachable w) {name name' : String} {s t : Shared}
    (hs : w.shares.find? name = some s) (ht : w.shares.find? name' = some t)
    (hi : s.interface = t.interface) : s.same t = true ↔ s.handle.same t.handle = true :=
  Shared.same_iff (found_of_reachable hw hs) (found_of_reachable hw ht) hi
    (eq_of_id_eq (Has.lives hw (.shared hs) rfl) (Has.lives hw (.shared ht) rfl))

/-! ## Copies -/

theorem find?_copy {a : Action} {source goal : String} {x : Holder} (ha : a.copy? = some (source, goal))
    (hx : w.handles.find? source = some x) :
    (w.perform a).1 = .handle x.handle ∧
      ∃ y, (w.after a).handles.find? goal = some y ∧ y.handle = x.handle := by
  cases a with
  | cloneHandle | takeHandle | specialize | generalize =>
    cases ha
    simp only [after, perform, Answer.ofOption, cloneHandle, takeHandle, specialize, generalize, onHandle, hx,
      find?_keep, if_true]
    exact ⟨trivial, _, rfl, rfl⟩
  | _ => cases ha

theorem find?_taken {source goal : String} {x : Holder} (hne : source ≠ goal)
    (hx : w.handles.find? source = some x) :
    (w.after (.takeHandle source goal)).handles.find? source = some x.emptied := by
  simp only [after, perform, Answer.ofOption, takeHandle, onHandle, hx, find?_keep, if_neg hne.symm,
    find?_put_self]

/-! ## Separate instances -/

theorem fresh_le_run (w : World) (actions : List Action) : w.host.fresh ≤ (w.run actions).host.fresh :=
  host_run (P := fun h => w.host.fresh ≤ h.fresh) (fun _ _ hm hle => Nat.le_trans hle hm.fresh_le)
    (fun _ _ hle => hle) (Nat.le_refl _) actions

/-- The handle that is answered is what the loader made, and it is kept. -/
theorem made_of_instantiate {loader plugin goal : String} {candidates : Option Candidates} {handle : Handle}
    (h : (w.perform (.instantiate loader plugin goal candidates)).1 = .handle handle) :
    (∀ x, handle.held = some x → x.id = w.host.fresh) ∧
      ∃ y, (w.after (.instantiate loader plugin goal candidates)).handles.find? goal = some y ∧
        y.handle = handle := by
  cases hL : w.loaders.find? loader with
  | none => simp [perform, Answer.ofOption, instantiate, hL] at h
  | some L =>
    simp only [perform, Answer.ofOption, instantiate, hL, Answer.handle.injEq] at h
    subst h
    exact ⟨fun x hx => L.id_of_instantiate hx, find?_handles_instantiate hL plugin goal candidates⟩

/-- A new instance has an identity that was the next one, and no later instance will have it. -/
theorem identity_lt_fresh (hw : Reachable w) {x : Holder} (hx : w.Has x) :
    x.handle.identity < w.host.fresh := by
  cases hheld : x.handle.held with
  | none =>
    rw [Handle.identity_of_isEmpty (Option.isNone_iff_eq_none.2 hheld)]
    exact fresh_pos hw
  | some i =>
    obtain ⟨v, hv, -⟩ := hx.lives hw hheld
    rw [Handle.identity_of_held hheld]
    exact (sound_of_reachable (fun _ => False) hw).host.balanced.living_lt_fresh hv

/-- Instances that were made one after the other are different, whatever happened in between. -/
theorem isEmpty_of_same (hw : Reachable w) {loader plugin goal loader' plugin' goal' : String}
    {candidates candidates' : Option Candidates} {actions : List Action} {a b : Handle}
    (ha : (w.perform (.instantiate loader plugin goal candidates)).1 = .handle a)
    (hb : ((w.run (.instantiate loader plugin goal candidates :: actions)).perform
      (.instantiate loader' plugin' goal' candidates')).1 = .handle b)
    (hsame : a.same b = true) : a.isEmpty = true ∧ b.isEmpty = true := by
  obtain ⟨hmade, y, hkept, rfl⟩ := made_of_instantiate ha
  have hlt : y.handle.identity < (w.run (.instantiate loader plugin goal candidates :: actions)).host.fresh :=
    Nat.lt_of_lt_of_le (identity_lt_fresh (hw.step _) (.kept hkept)) (fresh_le_run _ actions)
  have hidentity : y.handle.identity = b.identity := beq_iff_eq.1 hsame
  have hb_empty : b.held = none := by
    refine Option.eq_none_iff_forall_ne_some.2 fun x hx => ?_
    rw [hidentity, Handle.identity_of_held hx, (made_of_instantiate hb).1 x hx] at hlt
    exact Nat.lt_irrefl _ hlt
  refine ⟨?_, Option.isNone_iff_eq_none.2 hb_empty⟩
  rw [Handle.isEmpty, Option.isNone_iff_eq_none]
  refine Option.eq_none_iff_forall_ne_some.2 fun x hx => ?_
  rw [Handle.identity_of_held hx, hmade x hx,
    Handle.identity_of_isEmpty (Option.isNone_iff_eq_none.2 hb_empty)] at hidentity
  exact absurd hidentity (fresh_pos hw).ne'

/-! ## Identity -/

/-- Identity of the handles of a program. -/
structure Identified (w : World) : Prop where
  same : ∀ x y, w.Has x → w.Has y → (x.same y = true ↔
    x.handle.isEmpty = true ∧ y.handle.isEmpty = true ∨
      ∃ i, x.handle.held = some i ∧ y.handle.held = some i)
  /-- The comparison is a total order. -/
  order : Std.TransCmp Holder.compare
  consistent : ∀ x y : Holder, x.compare y = .eq ↔ x.same y = true
  first : ∀ x y, w.Has x → w.Has y → x.handle.isEmpty = true → y.handle.isEmpty = false →
    x.compare y = .lt
  hash : ∀ x y : Holder, x.same y = true → x.hash = y.hash
  /-- A specialized handle is equal to the generic one inside it. -/
  inner : ∀ x : Holder, x.same (.generic x.handle) = true
  /-- Copying, moving and binding a handle leads to one that is equal to it. -/
  copied : ∀ a source goal x, a.copy? = some (source, goal) → w.handles.find? source = some x →
    (w.perform a).1 = .handle x.handle ∧
      ∃ y, (w.after a).handles.find? goal = some y ∧ y.same x = true ∧ y.handle = x.handle
  /-- A handle from which another one takes becomes equal to the empty ones. -/
  taken : ∀ source goal x, source ≠ goal → w.handles.find? source = some x →
    ∃ y, (w.after (.takeHandle source goal)).handles.find? source = some y ∧
      y.candidates = x.candidates ∧ ∀ candidates, y.same (.empty candidates) = true
  /-- The handle of a shared capability is equal to the one that it was found with. -/
  shared : ∀ source i goal s, (w.share source i goal).1 = some (some s) →
    (w.after (.share source i goal)).shares.find? goal = some s ∧
      ∃ x, w.handles.find? source = some x ∧ (Holder.generic s.handle).same x = true
  given : ∀ source goal s, w.shares.find? source = some s →
    (w.perform (.handleOfShared source goal)).1 = .handle s.handle ∧
      (w.after (.handleOfShared source goal)).handles.find? goal = some (.generic s.handle)
  /-- Two instances that loaders make are different, whatever happens in between. -/
  separate : ∀ loader plugin goal candidates a actions loader' plugin' goal' candidates' b,
    (w.perform (.instantiate loader plugin goal candidates)).1 = .handle a →
    ((w.run (.instantiate loader plugin goal candidates :: actions)).perform
      (.instantiate loader' plugin' goal' candidates')).1 = .handle b →
    a.same b = true → a.isEmpty = true ∧ b.isEmpty = true
  /-- Shared capabilities for one interface are the same if their instances are. -/
  capabilities : ∀ name name' s t, w.shares.find? name = some s → w.shares.find? name' = some t →
    s.interface = t.interface → (s.same t = true ↔ s.handle.same t.handle = true)
  /-- All this is so wherever the instances and their capabilities are. -/
  placed : ∀ P : w.Placement,
    (∀ x y, w.Has x → w.Has y → (x.same y = true ↔ x.handle.address P.place = y.handle.address P.place)) ∧
      (∀ x y, w.Has x → w.Has y → x.handle.isEmpty = true → y.handle.isEmpty = false →
        x.handle.address P.place < y.handle.address P.place) ∧
      ∀ name name' s t, w.shares.find? name = some s → w.shares.find? name' = some t →
        s.interface = t.interface → (s.same t = true ↔ P.capability s.pointer = P.capability t.pointer)

theorem identified (hw : Reachable w) : Identified w where
  same := fun x y hx hy => (same_iff hw hx hy).trans Handle.held_eq_iff
  order := inferInstance
  consistent := fun _ _ => Handle.compare_eq_iff
  first := fun x y _ hy => compare_of_isEmpty hw hy
  hash := fun _ _ => Handle.hash_eq_of_same
  inner := fun x => x.handle.same_refl
  copied := fun a source goal x ha hx => by
    obtain ⟨hanswer, y, hy, hhandle⟩ := find?_copy ha hx
    refine ⟨hanswer, y, hy, ?_, hhandle⟩
    rw [Holder.same, hhandle, Handle.same_refl]
  taken := fun source goal x hne hx =>
    ⟨x.emptied, find?_taken hne hx, by cases x <;> rfl, fun candidates => by
      cases x <;> cases candidates <;> rfl⟩
  shared := fun source i goal s h => by
    obtain ⟨hkept, x, hx, hheld, -⟩ := find?_shared h
    have hhandle : x.handle = s.handle := congrArg Handle.mk hheld
    refine ⟨hkept, x, hx, ?_⟩
    rw [Holder.same, hhandle]
    exact s.handle.same_refl
  given := fun source goal s hs => by
    simp only [after, perform, Answer.ofOption, handleOfShared, hs, find?_keep, if_true]
    exact ⟨trivial, trivial⟩
  separate := fun _ _ _ _ _ _ _ _ _ _ _ ha hb => isEmpty_of_same hw ha hb
  capabilities := fun name name' s t hs ht hi => shared_same_iff hw hs ht hi
  placed := fun P =>
    ⟨fun x y hx hy => (same_iff hw hx hy).trans (address_eq_iff hw P hx hy).symm,
      fun x y _ hy => address_lt hw P hy, fun name name' s t hs ht hi => by
        refine (shared_same_iff hw hs ht hi).trans ⟨fun h => ?_, fun h => ?_⟩
        · rw [beq_iff_eq.1 ((shared_same_iff hw hs ht hi).2 h)]
        · have howner := P.apart s.owner t.owner _ _ _ _ (Has.lives hw (.shared hs) rfl)
            (Has.lives hw (.shared ht) rfl) (found_of_reachable hw hs) (found_of_reachable hw ht) h
          rw [Shared.handle, howner]
          exact t.handle.same_refl⟩

/-- An instance was copied, moved and bound to candidates, and two capabilities of it are shared; another one,
which was made before it, is gone. -/
def related : World :=
  (start (.withDirectory ["w"])).run
    [.changeFiles (.write ⟨"/w/a.so"⟩ (.library Image.dummyPlugins)),
      .newLoader "first" .standard ⟨[]⟩,
      .load "first" ⟨"/w/a.so"⟩,
      .instantiate "first" "dynaplug_dummy_plugins::DummyMultiPlugin" "old" none,
      .instantiate "first" "dynaplug_dummy_plugins::DummyMultiPlugin" "h"
        (some ⟨[Catalog.nameBase, Catalog.intBase]⟩),
      .dropHandle "old",
      .specialize "h" "narrow" ⟨[Catalog.doubleBase]⟩,
      .share "narrow" Catalog.nameBase "s",
      .share "h" Catalog.nameBase "t",
      .takeHandle "h" "moved",
      .generalize "narrow" "generic"]

theorem identified_of_related : Reachable related ∧ Nonempty related.Placement ∧ Identified related ∧
    ∃ h moved generic s t, related.handles.find? "h" = some h ∧ related.handles.find? "moved" = some moved ∧
      related.handles.find? "generic" = some generic ∧ related.shares.find? "s" = some s ∧
      related.shares.find? "t" = some t ∧ moved.same generic = true ∧ h.compare moved = .lt ∧
      s.same t = true ∧ (Holder.generic s.handle).same generic = true := by
  have hreach : Reachable related := (Reachable.start _).run _
  refine ⟨hreach, ⟨placement hreach⟩, identified hreach, ?_⟩
  have hkept : (do
      let h ← related.handles.find? "h"
      let moved ← related.handles.find? "moved"
      let generic ← related.handles.find? "generic"
      let s ← related.shares.find? "s"
      let t ← related.shares.find? "t"
      return decide (moved.same generic = true ∧ h.compare moved = .lt ∧ s.same t = true ∧
        (Holder.generic s.handle).same generic = true)) = some true := by
    decide +kernel
  simp only [Option.bind_eq_bind, Option.bind_eq_some_iff, Option.pure_def, Option.some.injEq,
    decide_eq_true_eq] at hkept
  obtain ⟨h, hh, moved, hmoved, generic, hgeneric, s, hs, t, ht, hall⟩ := hkept
  exact ⟨h, moved, generic, s, t, hh, hmoved, hgeneric, hs, ht, hall⟩

end World

end PluginHost
