import PluginHost.Proofs.Loader.Forgotten
import PluginHost.World.Action

/-!
# What actions do to loaders

An action leaves a loader as it is, puts another one in its place, lets it load some paths, or lets it
forget one key. What loading and forgetting keep, every action keeps.

* `World.Replaces`, `World.Loads`, `World.Forgets`: the actions that concern a loader.
* `World.LoaderStep`, `World.loader_after`: what is under the name of a loader after an action.
* `World.loader_of_reachable`: what every loader of a reachable world has.
-/

namespace PluginHost.World

set_option autoImplicit false

open PluginHost.Table

/-! ## Actions that concern a loader -/

/-- The action puts a new loader under the name, or drops the one that is there. -/
def Replaces (w : World) (a : Action) (loader : String) : Prop :=
  match a with
  | .newLoader name source env =>
    name = loader ∧ ∃ config, Config.effective w.host.files source env = .ok config
  | .dropLoader name => name = loader
  | _ => False

/-- The action lets the loader load the paths, one after the other. -/
def Loads (w : World) (a : Action) (loader : String) (paths : List Path) : Prop :=
  match a with
  | .load name p => name = loader ∧ paths = [p]
  | .tryLoad name p => name = loader ∧ paths = [p]
  | .loadConfigured name =>
    name = loader ∧ ∃ L, w.loaders.find? loader = some L ∧ paths = L.config.preload
  | _ => False

/-- The action lets the loader forget the library that it lists under the key. -/
def Forgets (w : World) (a : Action) (loader : String) (key : Path) : Prop :=
  ∃ L, w.loaders.find? loader = some L ∧
    match a with
    | .forget name p => name = loader ∧ L.listedKey w.host.files p = some key
    | .forgetOf name plugin =>
      name = loader ∧ ∃ p, L.libraryOf plugin = some p ∧ L.listedKey w.host.files p = some key
    | _ => False

/-! ## What is under the name of a loader -/

theorem loaders_onHandle {α : Type} {w : World} {name : String} {f : Holder → World → α × World}
    (hf : ∀ x, (f x w).2.loaders = w.loaders) : (w.onHandle name f).2.loaders = w.loaders := by
  unfold onHandle
  split
  · rfl
  · next x _ => exact hf x

theorem find?_onLoader {α : Type} (w : World) (name loader : String)
    (f : Loader → Host → α × Loader × Host) :
    (w.onLoader name f).2.loaders.find? loader =
      if name = loader then (w.loaders.find? loader).map fun L => (f L w.host).2.1
      else w.loaders.find? loader := by
  unfold onLoader
  by_cases hname : name = loader
  · subst hname
    cases hL : w.loaders.find? name with
    | none => simp [hL]
    | some L => simp
  · cases hL : w.loaders.find? name with
    | none => simp [hname]
    | some L => simp [hname, find?_put]

/-- What is under the name of a loader after an action, by what the action does to it. -/
inductive LoaderStep (w : World) (a : Action) (loader : String) (after : Option Loader) : Prop where
  | same (h : after = w.loaders.find? loader)
  | replaced (hr : w.Replaces a loader)
      (h : ∀ L, after = some L → ∃ config, L = .withConfig config)
  | loaded {L : Loader} {paths : List Path} (hL : w.loaders.find? loader = some L)
      (hl : w.Loads a loader paths) (h : after = some (L.loadAll w.host paths).2.1)
  | forgot {L : Loader} {key : Path} (hL : w.loaders.find? loader = some L)
      (hf : w.Forgets a loader key) (h : after = some (L.remove key))

theorem LoaderStep.of_onHandle {α : Type} {w : World} {a : Action} {loader name : String}
    {f : Holder → World → α × World} (hf : ∀ x, (f x w).2.loaders = w.loaders) :
    LoaderStep w a loader ((w.onHandle name f).2.loaders.find? loader) :=
  .same (congrArg (find? · loader) (loaders_onHandle hf))

theorem LoaderStep.of_onLoader {α : Type} {w : World} {a : Action} {loader name : String}
    {f : Loader → Host → α × Loader × Host}
    (hf : ∀ L, name = loader → w.loaders.find? loader = some L →
      LoaderStep w a loader (some (f L w.host).2.1)) :
    LoaderStep w a loader ((w.onLoader name f).2.loaders.find? loader) := by
  rw [find?_onLoader]
  by_cases hname : name = loader
  · rw [if_pos hname]
    cases hL : w.loaders.find? loader with
    | none => exact .same (by simp [hL])
    | some L => exact hf L hname hL
  · rw [if_neg hname]
    exact .same rfl

theorem LoaderStep.of_forget {w : World} {a : Action} {loader : String} {L : Loader} {p : Path}
    (hL : w.loaders.find? loader = some L)
    (hf : ∀ key, L.listedKey w.host.files p = some key → w.Forgets a loader key) :
    LoaderStep w a loader (some (L.forget w.host p).2.1) := by
  cases hkey : L.listedKey w.host.files p with
  | none => exact .same (by rw [hL, (Loader.forget_of_not_listed hkey).2])
  | some key => exact .forgot hL (hf key hkey) (by rw [(Loader.forget_of_listedKey hkey).2])

theorem loader_after (w : World) (a : Action) (loader : String) :
    LoaderStep w a loader ((w.after a).loaders.find? loader) := by
  cases a with
  | newLoader name source env =>
    simp only [after, perform, Answer.of, newLoader]
    cases hconfig : Config.effective w.host.files source env with
    | error e => exact .same rfl
    | ok config =>
      by_cases hname : name = loader
      · refine .replaced ⟨hname, config, hconfig⟩ fun L hL => ⟨config, ?_⟩
        simp only [hname, find?_put_self, Option.some.injEq] at hL
        exact hL.symm
      · exact .same (find?_put_of_ne _ _ (Ne.symm hname))
  | dropLoader name =>
    simp only [after, perform, Answer.of, dropLoader]
    split
    · exact .same rfl
    · by_cases hname : name = loader
      · refine .replaced hname fun L hL => ?_
        simp [hname] at hL
      · exact .same (by simp [find?_erase, hname])
  | load name p =>
    refine .of_onLoader fun L hname hL => ?_
    have hloads : w.Loads (.load name p) loader [p] := ⟨hname, rfl⟩
    exact .loaded hL hloads rfl
  | tryLoad name p =>
    refine .of_onLoader fun L hname hL => ?_
    have hloads : w.Loads (.tryLoad name p) loader [p] := ⟨hname, rfl⟩
    exact .loaded hL hloads (congrArg some (L.load_loader w.host p).symm)
  | loadConfigured name =>
    exact .of_onLoader fun L hname hL => .loaded hL ⟨hname, L, hL, rfl⟩ rfl
  | forget name p =>
    exact .of_onLoader fun L hname hL => .of_forget hL fun key hkey => ⟨L, hL, hname, hkey⟩
  | forgetOf name plugin =>
    refine .of_onLoader fun L hname hL => ?_
    cases hpath : L.libraryOf plugin with
    | none => exact .same (by simp [hL, Loader.forgetOf, hpath])
    | some p =>
      have hforgets : ∀ key, L.listedKey w.host.files p = some key →
          w.Forgets (.forgetOf name plugin) loader key :=
        fun key hkey => ⟨L, hL, hname, p, hpath, hkey⟩
      have hforget := LoaderStep.of_forget hL hforgets
      simpa only [Loader.forgetOf, hpath] using hforget
  | instantiate name plugin goal candidates =>
    simp only [after, perform, Answer.ofOption, instantiate]
    split <;> exact .same rfl
  | newHandle name candidates => exact .same rfl
  | cloneHandle name goal => exact .of_onHandle fun _ => rfl
  | takeHandle name goal => exact .of_onHandle fun _ => rfl
  | specialize name goal candidates => exact .of_onHandle fun _ => rfl
  | generalize name goal => exact .of_onHandle fun _ => rfl
  | resetHandle name => exact .of_onHandle fun _ => rfl
  | dropHandle name =>
    simp only [after, perform, Answer.of, dropHandle]
    split <;> exact .same rfl
  | query name i arg => exact .of_onHandle fun _ => rfl
  | require name i arg => exact .of_onHandle fun _ => rfl
  | queryNamed name interface arg => exact .of_onHandle fun _ => rfl
  | find name interface => exact .of_onHandle fun _ => rfl
  | findTwice name i => exact .of_onHandle fun _ => rfl
  | share name i goal =>
    refine .of_onHandle fun _ => ?_
    simp only
    split <;> rfl
  | callShared name arg =>
    simp only [after, perform, Answer.ofOption, callShared]
    split <;> exact .same rfl
  | cloneShared name goal =>
    simp only [after, perform, Answer.ofOption, cloneShared]
    split <;> exact .same rfl
  | handleOfShared name goal =>
    simp only [after, perform, Answer.ofOption, handleOfShared]
    split <;> exact .same rfl
  | dropShared name =>
    simp only [after, perform, Answer.of, dropShared]
    split <;> exact .same rfl
  | changeFiles change => exact .same rfl

theorem find?_after_of_forgets {w : World} {a : Action} {loader : String} {L : Loader} {key : Path}
    (hf : w.Forgets a loader key) (hL : w.loaders.find? loader = some L) :
    (w.after a).loaders.find? loader = some (L.remove key) := by
  obtain ⟨L₀, hL₀, hmatch⟩ := hf
  rw [hL, Option.some.injEq] at hL₀
  subst hL₀
  cases a with
  | forget name p =>
    obtain ⟨rfl, hkey⟩ := hmatch
    have hfind := w.find?_onLoader name name fun L h => L.forget h p
    simp only [after, perform, Answer.ofOption, forget]
    rw [hfind]
    simp [hL, Loader.forget_of_listedKey hkey]
  | forgetOf name plugin =>
    obtain ⟨rfl, p, hpath, hkey⟩ := hmatch
    have hfind := w.find?_onLoader name name fun L h => L.forgetOf h plugin
    simp only [after, perform, Answer.ofOption, forgetOf]
    rw [hfind]
    simp [hL, Loader.forgetOf, hpath, Loader.forget_of_listedKey hkey]
  | _ => exact False.elim hmatch

/-! ## What every loader has -/

/-- What a new loader has and loading and forgetting keep, every loader of a reachable world has. -/
theorem loader_of_reachable {P : Loader → Prop} (start : ∀ config, P (.withConfig config))
    (load : ∀ L h p, P L → P (L.load h p).2.1) (remove : ∀ L key, P L → P (L.remove key)) {w : World}
    (hw : Reachable w) {loader : String} {L : Loader} (hL : w.loaders.find? loader = some L) : P L := by
  induction hw generalizing L with
  | start files => simp [World.start] at hL
  | @step w a _ ih =>
    cases w.loader_after a loader with
    | same h => exact ih (h.symm.trans hL)
    | replaced _ h =>
      obtain ⟨config, rfl⟩ := h L hL
      exact start config
    | loaded hL₀ _ h =>
      rw [h, Option.some.injEq] at hL
      rw [← hL]
      exact Loader.loadAll_induction (motive := fun L _ => P L) _ (ih hL₀) load
    | forgot hL₀ _ h =>
      rw [h, Option.some.injEq] at hL
      rw [← hL]
      exact remove _ _ (ih hL₀)

end PluginHost.World
