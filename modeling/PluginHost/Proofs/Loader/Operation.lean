import PluginHost.Proofs.Loader.Forgotten
import PluginHost.Proofs.Loader.Frame

/-!
# Operations of a loader

A loader is changed by loading and forgetting alone, and each of these registers a library, removes a key
or does nothing. So what registering and removing keep, every operation keeps, whatever the host is that
it meets: its files, what is in memory, and whether the operation succeeds.

* `Loader.Operation`: what a program asks of a loader, as data.
* `Loader.after`: a loader after operations, each with the host that it meets.
* `Loader.after_induction`: what registering and removing keep.
-/

namespace PluginHost.Loader

set_option autoImplicit false

inductive Operation where
  | load (p : Path)
  | tryLoad (p : Path)
  | loadAll (paths : List Path)
  | loadConfigured
  | forget (p : Path)
  | forgetOf (plugin : String)

namespace Operation

def perform (L : Loader) (h : Host) : Operation → Loader × Host
  | .load p => (L.load h p).2
  | .tryLoad p => (L.tryLoad h p).2
  | .loadAll paths => (L.loadAll h paths).2
  | .loadConfigured => (L.loadConfigured h).2
  | .forget p => (L.forget h p).2
  | .forgetOf plugin => (L.forgetOf h plugin).2

theorem perform_induction {P : Loader → Prop} (load : ∀ L h p, P L → P (L.tryLoad h p).2.1)
    (remove : ∀ L key, P L → P (L.remove key)) {L : Loader} (hL : P L) (h : Host) (o : Operation) :
    P (o.perform L h).1 := by
  have hload : ∀ L h p, P L → P (L.load h p).2.1 := by
    intro L h p hL
    rw [load_loader]
    exact load L h p hL
  have hall : ∀ paths, P (L.loadAll h paths).2.1 := fun paths =>
    loadAll_induction (motive := fun L _ => P L) paths hL hload
  have hremoved : ∀ {L' : Loader}, L' = L ∨ (∃ key, L' = L.remove key) → P L' := by
    rintro L' (rfl | ⟨key, rfl⟩)
    · exact hL
    · exact remove L key hL
  cases o with
  | load p => exact hload L h p hL
  | tryLoad p => exact load L h p hL
  | loadAll paths => exact hall paths
  | loadConfigured => exact hall L.config.preload
  | forget p => exact hremoved (L.forget_loader h p)
  | forgetOf plugin => exact hremoved (L.forgetOf_loader h plugin)

end Operation

/-- The loader after operations; each meets a host of its own. -/
def after (L : Loader) (operations : List (Host × Operation)) : Loader :=
  operations.foldl (fun L step => (step.2.perform L step.1).1) L

theorem after_append (L : Loader) (operations more : List (Host × Operation)) :
    L.after (operations ++ more) = (L.after operations).after more := List.foldl_append

theorem after_induction {P : Loader → Prop} (load : ∀ L h p, P L → P (L.tryLoad h p).2.1)
    (remove : ∀ L key, P L → P (L.remove key)) {L : Loader} (hL : P L)
    (operations : List (Host × Operation)) : P (L.after operations) := by
  induction operations generalizing L with
  | nil => exact hL
  | cons step rest ih => exact ih (Operation.perform_induction load remove hL step.1 step.2)

theorem consistent_after {L : Loader} (hc : L.Consistent) (operations : List (Host × Operation)) :
    (L.after operations).Consistent :=
  after_induction (fun _ h p hc => hc.tryLoad h p) (fun _ key hc => hc.remove key) hc operations

theorem config_after (L : Loader) (operations : List (Host × Operation)) :
    (L.after operations).config = L.config :=
  after_induction (fun L' h p hconfig => (L'.config_tryLoad h p).trans hconfig)
    (fun _ _ hconfig => hconfig) rfl operations

end PluginHost.Loader
