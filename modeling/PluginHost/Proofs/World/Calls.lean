import PluginHost.Proofs.Loader.Calls
import PluginHost.Proofs.World.LifeCycle
import PluginHost.Proofs.World.Loaders
import PluginHost.Proofs.World.Registration

/-!
# Code runs only behind the checks

Whatever loader loads whatever libraries, of each library no function is called but the one that fits what
the library declares, and none at all when the load ends early. No load makes, uses or deletes an instance.

* `World.callsOf`: the calls in an action.
* `World.Guarded`: what the calls keep to. `World.guarded`: so it is for all loads in all worlds.
-/

namespace PluginHost.World

set_option autoImplicit false

open PluginHost.Table

/-- The calls into plugin code in an action, in order. -/
def callsOf (w : World) (a : Action) : List (Origin × Call) := (w.eventsOf a).filterMap Event.call?

theorem callsOf_eq {w : World} {a : Action} {calls : List (Origin × Call)}
    (hc : w.host.Calls (w.after a).host calls) : w.callsOf a = calls := hc.callsSince_eq

/-- The calls of an action in which a loader loads the paths one after the other. -/
structure Guarded (w : World) (a : Action) (L : Loader) (paths : List Path) : Prop where
  loads : L.Guarded w.host paths (w.callsOf a)
  only : ∀ o c, (o, c) ∈ w.callsOf a → c.Describes

theorem guarded_of_calls {w : World} {a : Action} {L : Loader} {paths : List Path}
    {calls : List (Origin × Call)} (hc : w.host.Calls (w.after a).host calls)
    (hg : L.Guarded w.host paths calls) : w.Guarded a L paths := by
  rw [← callsOf_eq hc] at hg
  exact ⟨hg, fun o c hmem => hg.only hmem⟩

theorem guarded {w : World} {a : Action} {loader : String} {L : Loader} {paths : List Path}
    (hL : w.loaders.find? loader = some L) (hl : w.Loads a loader paths) : w.Guarded a L paths := by
  -- a single load is a list of one
  have hone : ∀ {p : Path} {calls : List (Origin × Call)}, w.host.Guarded p (L.tryLoad w.host p).1 calls →
      L.Guarded w.host [p] calls := by
    intro p calls hg
    have hlist := Loader.Guarded.cons hg (.nil (L.load w.host p).2.1 (L.load w.host p).2.2)
    rwa [List.append_nil] at hlist
  cases a with
  | load name p =>
    obtain ⟨rfl, rfl⟩ := hl
    obtain ⟨calls, hcalls, hg⟩ := L.guarded_tryLoad w.host p
    have hhost : (w.after (.load name p)).host = (L.load w.host p).2.2 := by
      simp only [after, perform, Answer.ofOption, load, onLoader, hL]
    refine guarded_of_calls ?_ (hone hg)
    rw [hhost]
    exact Loader.calls_load hcalls
  | tryLoad name p =>
    obtain ⟨rfl, rfl⟩ := hl
    obtain ⟨calls, hcalls, hg⟩ := L.guarded_tryLoad w.host p
    refine guarded_of_calls ?_ (hone hg)
    rwa [host_after_tryLoad hL]
  | loadConfigured name =>
    obtain ⟨rfl, L', hL', rfl⟩ := hl
    obtain rfl : L = L' := Option.some.inj (hL.symm.trans hL')
    obtain ⟨calls, hcalls, hg⟩ := L.guarded_loadAll w.host L.config.preload
    have hhost : (w.after (.loadConfigured name)).host = (L.loadConfigured w.host).2.2 := by
      simp only [after, perform, Answer.ofOption, loadConfigured, onLoader, hL]
    refine guarded_of_calls ?_ hg
    rwa [hhost]
  | _ => exact hl.elim

/-- A loader is to load at the start a library of each version, one that declares a wrong size, and one that
is not there. -/
def assorted : World :=
  (start (.withDirectory ["w"])).run
    [.changeFiles (.write ⟨"/w/a.so"⟩ (.library Image.dummyPlugins)),
      .changeFiles (.write ⟨"/w/b.so"⟩ (.library (Image.legacyPlugin "b" "b" "B" 2))),
      .changeFiles (.write ⟨"/w/c.so"⟩ (.library Image.oversized)),
      .changeFiles (.write ⟨"/w/d.so"⟩ (.library (Image.legacyPlugin "d" "d" "D" 1))),
      .newLoader "first" (.values none
        (some [⟨"/w/a.so"⟩, ⟨"/w/b.so"⟩, ⟨"/w/c.so"⟩, ⟨"/w/d.so"⟩, ⟨"/w/e.so"⟩]) none) ⟨[]⟩]

theorem guarded_of_assorted : ∃ L, assorted.loaders.find? "first" = some L ∧
    assorted.Loads (.loadConfigured "first") "first" L.config.preload ∧
    assorted.Guarded (.loadConfigured "first") L L.config.preload ∧
    assorted.callsOf (.loadConfigured "first") =
      [(⟨1, "dynaplug_dummy_plugins", false⟩, .describe 0), (⟨1, "dynaplug_dummy_plugins", false⟩, .describe 1),
        (⟨1, "dynaplug_dummy_plugins", false⟩, .describe 2), (⟨3, "b", false⟩, .describeLegacy .fills),
        (⟨6, "d", false⟩, .describeLegacy .returns)] := by
  have hknown : (assorted.loaders.find? "first").isSome = true := by decide +kernel
  obtain ⟨L, hL⟩ := Option.isSome_iff_exists.1 hknown
  have hloads : assorted.Loads (.loadConfigured "first") "first" L.config.preload := ⟨rfl, L, hL, rfl⟩
  exact ⟨L, hL, hloads, guarded hL hloads, by decide +kernel⟩

end PluginHost.World
