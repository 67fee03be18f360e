import PluginHost.Proofs.Host.Parting
import PluginHost.Proofs.World.Counters
import PluginHost.Proofs.World.LifeCycle

/-!
# Giving back the last holder

Whatever action takes the last holder of an instance, it ends with giving this holder back. For an instance
without a deleter nothing is called then, and all that it counted for is given back.

* `World.Releases`: an action does nothing but give back a holder of an instance.
* `World.exists_parting`: what is left of any action that takes the last holder.
* `World.parts_of_releases`: what an action does that only gives back the last holder.
-/

namespace PluginHost.World

set_option autoImplicit false

open PluginHost.Table

variable {w : World} {a : Action} {x : Instance}

/-- A handle of the instance is dropped, reset or replaced by an empty one, or a shared capability is
dropped. -/
def Releases (w : World) (x : Instance) : Action → Prop
  | .dropHandle name | .resetHandle name | .newHandle name _ =>
    ∃ y, w.handles.find? name = some y ∧ y.handle.held = some x
  | .dropShared name => ∃ s, w.shares.find? name = some s ∧ s.owner = x
  | _ => False

theorem host_after_of_releases (ha : w.Releases x a) : (w.after a).host = w.host.release x := by
  cases a with
  | dropHandle name =>
    obtain ⟨y, hy, hheld⟩ := ha
    simp only [after, perform, Answer.of, dropHandle, hy, Handle.release, hheld]
  | resetHandle name =>
    obtain ⟨y, hy, hheld⟩ := ha
    simp only [after, perform, Answer.ofOption, resetHandle, onHandle, hy, Handle.release, hheld]
  | newHandle name candidates =>
    obtain ⟨y, hy, hheld⟩ := ha
    simp only [after, perform, Answer.of, newHandle, keep, hy, Handle.release, hheld]
  | dropShared name =>
    obtain ⟨s, hs, rfl⟩ := ha
    simp only [after, perform, Answer.of, dropShared, hs]
  | _ => exact False.elim ha

theorem mem_held_of_releases (ha : w.Releases x a) : x ∈ w.held := by
  cases a with
  | dropHandle name | resetHandle name | newHandle name candidates =>
    obtain ⟨y, hy, hheld⟩ := ha
    exact owned_subset_held hy (Handle.mem_owned.2 hheld)
  | dropShared name =>
    obtain ⟨s, hs, rfl⟩ := ha
    exact owner_mem_held hs
  | _ => exact False.elim ha

/-- An instance that lives no longer has left the table, for identities are not used again. -/
theorem find?_of_gone (hw : Reachable w) (hx : w.Lives x) (hgone : ¬ (w.after a).Lives x) :
    (w.after a).host.instances.find? x.id = none := by
  have hs := (sound_of_reachable (fun _ => True) hw).restart
  obtain ⟨v, hv, hbody⟩ := hx
  cases hv' : (w.after a).host.instances.find? x.id with
  | none => rfl
  | some v' =>
    have hlt := hs.host.balanced.living_lt_fresh hv
    obtain ⟨v₀, hv₀, hsame⟩ := (hs.after a fun _ _ => trivial).host.follows.survived x.id v' hlt hv'
    obtain rfl : v = v₀ := Option.some.inj (hv.symm.trans hv₀)
    exact absurd ⟨v', hv', hsame.trans hbody⟩ hgone

/-- An action that takes the last holder of an instance without a deleter adds holders and makes instances at
most, before it parts with the instance. -/
theorem exists_parting (hw : Reachable w) (hx : w.Lives x) (hgone : ¬ (w.after a).Lives x)
    (hleak : x.info.deleter = .leak) : ∃ g, w.host.Gains g ∧ (w.after a).host = g.release x ∧
      g.Parts (g.release x) x := by
  have hnone := find?_of_gone hw hx hgone
  have hs := sound_of_reachable (fun _ => True) hw
  have ⟨v, hv, hbody⟩ := hx
  have hlt := hs.host.balanced.living_lt_fresh hv
  have hyields := yields_after hw a
  generalize (w.after a).host = after at hyields hnone ⊢
  cases hyields with
  | kept uses _ =>
    have hpos := (uses_of_lives hw hx).2
    have huses := uses x
    simp only [Host.uses, hnone] at huses
    simp only [Host.uses] at hpos
    omega
  | raised gains =>
    obtain ⟨-, v', hv', -⟩ := gains.kept hlt hv
    rw [hnone] at hv'
    cases hv'
  | @lowered births earlier g y opened referred held gains sound =>
    obtain ⟨-, v', hv', hbody'⟩ := gains.kept hlt hv
    have hsound' := sound.release
    -- only the instance that is given back can leave the table
    have hmem := (sound.balanced.instances.body_mem hv').1
    rw [hbody', hbody] at hmem
    have hout : x ∉ held := by
      intro hin
      obtain ⟨u, hu, -⟩ := hsound'.balanced.instances.kept x hin
      rw [hnone] at hu
      cases hu
    obtain rfl : x = y := (Multiset.mem_cons.1 hmem).resolve_right hout
    exact ⟨g, gains, rfl, sound.parts hout hleak⟩

/-- When an action only gives back the last holder of an instance without a deleter, the world parts with the
instance. -/
theorem parts_of_releases (hw : Reachable w) (ha : w.Releases x a) (hlast : w.host.uses x = 1)
    (hleak : x.info.deleter = .leak) : w.host.Parts (w.after a).host x := by
  have hs := sound_of_reachable (fun _ => True) hw
  have hmem := mem_held_of_releases ha
  have hcount := (uses_of_lives hw (hs.lives_iff.2 hmem)).1
  have hout : x ∉ w.held.erase x := by
    intro hin
    have hpos := Multiset.count_pos.2 hin
    rw [Multiset.count_erase_self] at hpos
    omega
  have hheld : Host.Sound (fun _ => True) w.host w.host 0 w.references (x ::ₘ w.held.erase x) := by
    rw [Multiset.cons_erase hmem, ← zero_add w.held]
    exact hs.restart.host
  rw [host_after_of_releases ha]
  exact hheld.parts hout hleak

end PluginHost.World
