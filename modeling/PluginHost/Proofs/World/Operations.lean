import PluginHost.Proofs.Loader.Operation
import PluginHost.Proofs.World.Loaders

/-!
# The operations of a loader in a world

Under the name of a loader there is what its operations made of an empty loader since it was made. What
else happens in the world between two operations shows in the host that the next one meets.

* `Action.operation?`: the operation that an action is.
* `World.find?_after_eq_some`: a loader after an action was made by it or went through its operation.
* `World.operationsOf`: the operations of a loader along a run.
* `World.loader_run`: a loader is what its operations made of an empty one.
-/

namespace PluginHost

set_option autoImplicit false

open PluginHost.Table
open Loader (Operation)

/-- The operation that the action is, with the name of its loader. -/
def Action.operation? : Action → Option (String × Operation)
  | .load name p => some (name, .load p)
  | .tryLoad name p => some (name, .tryLoad p)
  | .loadConfigured name => some (name, .loadConfigured)
  | .forget name p => some (name, .forget p)
  | .forgetOf name plugin => some (name, .forgetOf plugin)
  | _ => none

namespace World

/-! ## One action -/

instance instDecidableReplaces (w : World) (a : Action) (loader : String) :
    Decidable (w.Replaces a loader) :=
  match a with
  | .newLoader name source env =>
    match hconfig : Config.effective w.host.files source env with
    | .ok config => decidable_of_iff (name = loader) (by simp [Replaces, hconfig])
    | .error e => .isFalse (by simp [Replaces, hconfig])
  | .dropLoader name => inferInstanceAs (Decidable (name = loader))
  | .load .. | .tryLoad .. | .loadConfigured .. | .forget .. | .forgetOf .. | .instantiate ..
  | .newHandle .. | .cloneHandle .. | .takeHandle .. | .specialize .. | .generalize ..
  | .resetHandle .. | .dropHandle .. | .query .. | .require .. | .queryNamed .. | .find ..
  | .findTwice .. | .share .. | .callShared .. | .cloneShared .. | .handleOfShared ..
  | .dropShared .. | .changeFiles .. => .isFalse id

/-- The operation that the action is for this loader, with the host that it meets. -/
def operations (w : World) (a : Action) (loader : String) : List (Host × Operation) :=
  match a.operation? with
  | some (name, o) => if name = loader then [(w.host, o)] else []
  | none => []

theorem loaders_after_of_operation {w : World} {a : Action} {name : String} {o : Operation}
    (ha : a.operation? = some (name, o)) : (w.after a).loaders =
      (w.onLoader name fun L h => ((), o.perform L h)).2.loaders := by
  cases a <;> simp only [Action.operation?, Option.some.injEq, Prod.mk.injEq, reduceCtorEq] at ha
  all_goals
    obtain ⟨rfl, rfl⟩ := ha
    simp only [after, perform, Answer.ofOption, load, tryLoad, loadConfigured, forget, forgetOf, onLoader]
    split <;> rfl

theorem find?_after_of_idle {w : World} {a : Action} {loader : String} (ha : a.operation? = none)
    (hr : ¬ w.Replaces a loader) : (w.after a).loaders.find? loader = w.loaders.find? loader := by
  cases w.loader_after a loader with
  | same h => exact h
  | replaced hreplaces => exact absurd hreplaces hr
  | loaded _ hloads => cases a <;> first | exact hloads.elim | simp [Action.operation?] at ha
  | forgot _ hforgets =>
    obtain ⟨_, -, hmatch⟩ := hforgets
    cases a <;> first | exact hmatch.elim | simp [Action.operation?] at ha

theorem find?_after_of_replaces {w : World} {a : Action} {loader : String} {L : Loader}
    (hr : w.Replaces a loader) (hL : (w.after a).loaders.find? loader = some L) :
    ∃ config, L = .withConfig config := by
  cases a with
  | newLoader name source env =>
    obtain ⟨rfl, config, hconfig⟩ := hr
    simp only [after, perform, Answer.of, newLoader, hconfig, find?_put_self, Option.some.injEq] at hL
    exact ⟨config, hL.symm⟩
  | dropLoader name =>
    obtain rfl : name = loader := hr
    simp only [after, perform, Answer.of, dropLoader] at hL
    split at hL
    · next hnone => rw [hnone] at hL; simp at hL
    · simp at hL
  | _ => exact hr.elim

/-- What is under the name of a loader after an action is a new loader, or what the operation of the
action, if it is one, made of the loader that was there. -/
theorem find?_after_eq_some {w : World} {a : Action} {loader : String} {L : Loader}
    (hL : (w.after a).loaders.find? loader = some L) :
    (w.Replaces a loader ∧ ∃ config, L = .withConfig config) ∨
      (¬ w.Replaces a loader ∧ ∃ L₀, w.loaders.find? loader = some L₀ ∧
        L = L₀.after (w.operations a loader)) := by
  by_cases hr : w.Replaces a loader
  · exact .inl ⟨hr, find?_after_of_replaces hr hL⟩
  · refine .inr ⟨hr, ?_⟩
    cases ha : a.operation? with
    | none =>
      rw [find?_after_of_idle ha hr] at hL
      exact ⟨L, hL, by simp [operations, ha, Loader.after]⟩
    | some found =>
      obtain ⟨name, o⟩ := found
      rw [loaders_after_of_operation ha, find?_onLoader] at hL
      by_cases hname : name = loader
      · rw [if_pos hname, Option.map_eq_some_iff] at hL
        obtain ⟨L₀, hL₀, rfl⟩ := hL
        exact ⟨L₀, hL₀, by simp [operations, ha, hname, Loader.after]⟩
      · rw [if_neg hname] at hL
        exact ⟨L, hL, by simp [operations, ha, hname, Loader.after]⟩

/-! ## A run -/

/-- The operations of what is under the name of a loader after a run, when `past` are those of what was
there before it. -/
def operationsOf (loader : String) (w : World) (past : List (Host × Operation)) :
    List Action → List (Host × Operation)
  | [] => past
  | a :: rest =>
    operationsOf loader (w.after a)
      (if w.Replaces a loader then [] else past ++ w.operations a loader) rest

theorem loader_run_of_past {loader : String} {actions : List Action} {w : World}
    {past : List (Host × Operation)}
    (hpast : ∀ L, w.loaders.find? loader = some L → ∃ config, L = (Loader.withConfig config).after past)
    {L : Loader} (hL : (w.run actions).loaders.find? loader = some L) :
    ∃ config, L = (Loader.withConfig config).after (operationsOf loader w past actions) := by
  induction actions generalizing w past with
  | nil => exact hpast L hL
  | cons a rest ih =>
    refine ih (fun L hL => ?_) hL
    rcases find?_after_eq_some hL with ⟨hr, config, rfl⟩ | ⟨hr, L₀, hL₀, rfl⟩
    · rw [if_pos hr]
      exact ⟨config, rfl⟩
    · obtain ⟨config, rfl⟩ := hpast L₀ hL₀
      rw [if_neg hr]
      exact ⟨config, (Loader.after_append _ _ _).symm⟩

/-- A loader is what its operations made of an empty loader with its settings. -/
theorem loader_run {files : FileTree} {actions : List Action} {loader : String} {L : Loader}
    (hL : ((start files).run actions).loaders.find? loader = some L) :
    L = (Loader.withConfig L.config).after (operationsOf loader (start files) [] actions) := by
  have hstart : ∀ L, (start files).loaders.find? loader = some L →
      ∃ config, L = (Loader.withConfig config).after [] := by
    intro L hL
    simp [start] at hL
  obtain ⟨config, hmade⟩ := loader_run_of_past hstart hL
  have hconfig : L.config = config := by
    rw [hmade]
    exact Loader.config_after _ _
  rw [hconfig]
  exact hmade

end World

end PluginHost
