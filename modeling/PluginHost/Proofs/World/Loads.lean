import PluginHost.Proofs.Loader.Passes
import PluginHost.World.Action

/-!
# Loads in a row

Loading the configured libraries of a loader is one action, and loading each of them is one action for each. In
the world nothing tells the two apart.

* `World.answers`: what is answered to actions in a row.
* `World.run_loads`, `World.answers_loads`: loads in a row are those of a list of libraries.
* `World.after_loadConfigured`: so are those of the configured libraries.
-/

namespace PluginHost.World

set_option autoImplicit false

open PluginHost.Table

/-- What is answered to actions that are done one after the other. -/
def answers (w : World) : List Action → List Answer
  | [] => []
  | a :: rest => (w.perform a).1 :: (w.after a).answers rest

theorem run_append (w : World) (actions more : List Action) :
    w.run (actions ++ more) = (w.run actions).run more := List.foldl_append

variable {w : World} {loader : String} {L : Loader}

/-- The world after its loader and its host became others. -/
def become (w : World) (loader : String) (done : Loader × Host) : World :=
  { w with
    host := done.2
    loaders := w.loaders.put loader done.1 }

theorem find?_become (w : World) (loader : String) (done : Loader × Host) :
    (w.become loader done).loaders.find? loader = some done.1 := find?_put_self _ _ _

theorem become_become (w : World) (loader : String) (done done' : Loader × Host) :
    (w.become loader done).become loader done' = w.become loader done' := by
  simp only [become, put_put]

theorem perform_load (hL : w.loaders.find? loader = some L) (p : Path) : w.perform (.load loader p) =
    (.names (L.load w.host p).1, w.become loader (L.load w.host p).2) := by
  simp only [perform, Answer.ofOption, load, onLoader, hL, become]

theorem perform_loadConfigured (hL : w.loaders.find? loader = some L) : w.perform (.loadConfigured loader) =
    (.names (L.loadAll w.host L.config.preload).1,
      w.become loader (L.loadAll w.host L.config.preload).2) := by
  simp only [perform, Answer.ofOption, loadConfigured, onLoader, hL, become, Loader.loadConfigured]

theorem run_loads (hL : w.loaders.find? loader = some L) (paths : List Path) :
    w.run (paths.map (.load loader)) = w.become loader (L.loadAll w.host paths).2 := by
  induction paths generalizing w L with
  | nil =>
    have hsame : w.loaders.put loader L = w.loaders := put_of_find? hL
    show w = { w with host := w.host, loaders := w.loaders.put loader L }
    rw [hsame]
  | cons p rest ih =>
    have hafter : w.after (.load loader p) = w.become loader (L.load w.host p).2 := by
      rw [after, perform_load hL]
    rw [Loader.loadAll_cons, List.map_cons, run, List.foldl_cons, hafter]
    exact (ih (w.find?_become loader _)).trans (w.become_become loader _ _)

theorem answers_loads (hL : w.loaders.find? loader = some L) (paths : List Path) :
    w.answers (paths.map (.load loader)) = (L.answersOf w.host paths).map .names := by
  induction paths generalizing w L with
  | nil => rfl
  | cons p rest ih =>
    rw [List.map_cons, answers, after, perform_load hL, Loader.answersOf, List.map_cons]
    exact congrArg _ (ih (w.find?_become loader _))

/-- Loading the configured libraries has the effect of loading one after the other. -/
theorem after_loadConfigured (hL : w.loaders.find? loader = some L) :
    w.after (.loadConfigured loader) = w.run (L.config.preload.map (.load loader)) := by
  rw [after, perform_loadConfigured hL, run_loads hL]

end PluginHost.World
