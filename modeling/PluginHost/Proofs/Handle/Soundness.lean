import PluginHost.Proofs.Handle.Binding
import PluginHost.Proofs.Host.Soundness

/-!
# Every operation of a handle is sound

A handle owns the instance that it holds. Copies, queries and binding need an owner and leave it there;
letting go takes it away.

* `Handle.owned`: what a handle owns.
* `Host.Sound.retainHandle`, `Host.Sound.releaseHandle`: copies come and go.
* `Host.Sound.bind`, `Host.Sound.queryHolder`: looking for capabilities.
-/

namespace PluginHost

set_option autoImplicit false

/-- What a handle owns: its instance, if it holds one. -/
def Handle.owned (handle : Handle) : Multiset Instance := ↑handle.held.toList

theorem Handle.mem_owned {handle : Handle} {x : Instance} :
    x ∈ handle.owned ↔ handle.held = some x := by
  simp [owned]

@[simp] theorem Holder.owned_emptied (x : Holder) : x.emptied.handle.owned = 0 := by
  cases x <;> rfl

namespace Host.Sound

variable {births : Nat → Prop} {earlier h : Host} {opened : Multiset Nat} {referred : Multiset Library}
  {held : Multiset Instance} {handle : Handle}

theorem retainHandle (hs : Sound births earlier h opened referred held) (hsub : handle.owned ⊆ held) :
    Sound births earlier (handle.retain h) opened referred (handle.owned + held) := by
  unfold Handle.retain
  split
  · next hx => simpa [Handle.owned, hx] using hs
  · next x hx =>
    have hretained := hs.retain (hsub (Handle.mem_owned.2 hx))
    simpa [Handle.owned, hx] using hretained

theorem releaseHandle (hs : Sound births earlier h opened referred (handle.owned + held)) :
    Sound births earlier (handle.release h) opened referred held := by
  unfold Handle.release
  split
  · next hx => simpa [Handle.owned, hx] using hs
  · next x hx =>
    refine release ?_
    simpa [Handle.owned, hx] using hs

theorem queryHandle (hs : Sound births earlier h opened referred held) (hsub : handle.owned ⊆ held)
    (interface : String) : Sound births earlier (handle.query h interface).2 opened referred held := by
  unfold Handle.query
  split
  · exact hs
  · next x hx => exact hs.resolve (hsub (Handle.mem_owned.2 hx)) interface

theorem resolveAll (hs : Sound births earlier h opened referred held) (hsub : handle.owned ⊆ held)
    (interfaces : List Interface) :
    Sound births earlier (Specialized.resolveAll handle h interfaces).2 opened referred held := by
  induction interfaces generalizing h with
  | nil => exact hs
  | cons i rest ih => exact ih (hs.queryHandle hsub i.name)

theorem bind (hs : Sound births earlier h opened referred held) (hsub : handle.owned ⊆ held)
    (candidates : Candidates) :
    Sound births earlier (Specialized.bind handle candidates h).2 opened referred held :=
  hs.resolveAll hsub candidates.interfaces

theorem make (hs : Sound births earlier h opened referred held) (hsub : handle.owned ⊆ held)
    (candidates : Option Candidates) :
    Sound births earlier (Holder.make handle candidates h).2 opened referred held := by
  cases candidates with
  | none => exact hs
  | some c => exact hs.bind hsub c

theorem queryHolder (hs : Sound births earlier h opened referred held) {x : Holder}
    (hsub : x.handle.owned ⊆ held) (i : Interface) :
    Sound births earlier (x.query h i).2 opened referred held := by
  cases x with
  | generic handle => exact hs.queryHandle hsub i.name
  | specialized s =>
    simp only [Holder.query, Specialized.query]
    split
    · exact hs
    · exact hs.queryHandle hsub i.name

end Host.Sound

end PluginHost
