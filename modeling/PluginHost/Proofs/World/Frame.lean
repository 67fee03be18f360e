import PluginHost.Proofs.World.Loaders

/-!
# What an action writes to

An action writes to a few names at most. What is kept under another name, be it a handle, a shared
capability or a loader, is the same afterwards.

* `World.Assigns`, `World.AssignsShared`, `Action.loader?`: the names that an action writes to.
* `World.find?_handles_after`, `World.find?_shares_after`, `World.find?_loaders_after`: all else stays.
-/

namespace PluginHost

set_option autoImplicit false

open PluginHost.Table

/-! ## What actions write to -/

/-- The loader that the action makes, changes or drops. -/
def Action.loader? : Action → Option String
  | .newLoader loader _ _ => some loader
  | .dropLoader loader => some loader
  | .load loader _ => some loader
  | .tryLoad loader _ => some loader
  | .loadConfigured loader => some loader
  | .forget loader _ => some loader
  | .forgetOf loader _ => some loader
  | _ => none

namespace World

/-- The action puts a handle under the name, or empties, moves or drops the one that is there. -/
def Assigns (w : World) (a : Action) (name : String) : Prop :=
  match a with
  | .instantiate loader _ goal _ => goal = name ∧ (w.loaders.find? loader).isSome = true
  | .newHandle goal _ => goal = name
  | .cloneHandle source goal => goal = name ∧ (w.handles.find? source).isSome = true
  | .takeHandle source goal => (source = name ∨ goal = name) ∧ (w.handles.find? source).isSome = true
  | .specialize source goal _ => goal = name ∧ (w.handles.find? source).isSome = true
  | .generalize source goal => (source = name ∨ goal = name) ∧ (w.handles.find? source).isSome = true
  | .resetHandle goal => goal = name
  | .dropHandle goal => goal = name
  | .handleOfShared source goal => goal = name ∧ (w.shares.find? source).isSome = true
  | _ => False

/-- The action puts a shared capability under the name, or drops the one that is there. -/
def AssignsShared (w : World) (a : Action) (name : String) : Prop :=
  match a with
  | .share source i goal => goal = name ∧ ∃ s, (w.share source i goal).1 = some (some s)
  | .cloneShared source goal => goal = name ∧ (w.shares.find? source).isSome = true
  | .dropShared goal => goal = name
  | _ => False

/-! ## What stays under a name -/

variable {w : World} {a : Action} {name : String}

theorem find?_keep (w : World) (goal name : String) (x : Holder) :
    (w.keep goal x).handles.find? name = if goal = name then some x else w.handles.find? name := by
  simp [keep, find?_put]

theorem find?_keepShared (w : World) (goal name : String) (s : Shared) :
    (w.keepShared goal s).shares.find? name = if goal = name then some s else w.shares.find? name := by
  simp [keepShared, find?_put]

/-- What is so before doing something with a handle, and after it if there is one, is so in any case. -/
theorem onHandle_induction {α : Type} {P : World → Prop} {source : String}
    {f : Holder → World → α × World} (hw : P w)
    (hf : ∀ x, w.handles.find? source = some x → P (f x w).2) : P (w.onHandle source f).2 := by
  unfold onHandle
  split
  · exact hw
  · next x hx => exact hf x hx

theorem tables_onLoader {α : Type} (w : World) (loader : String) (f : Loader → Host → α × Loader × Host) :
    (w.onLoader loader f).2.handles = w.handles ∧ (w.onLoader loader f).2.shares = w.shares := by
  unfold onLoader
  split <;> exact ⟨rfl, rfl⟩

theorem tables_after_of_loader (ha : a.loader?.isSome = true) :
    (w.after a).handles = w.handles ∧ (w.after a).shares = w.shares := by
  cases a with
  | newLoader loader source env =>
    simp only [after, perform, Answer.of, newLoader]
    split <;> exact ⟨rfl, rfl⟩
  | dropLoader loader =>
    simp only [after, perform, Answer.of, dropLoader]
    split <;> exact ⟨rfl, rfl⟩
  | load loader p => exact w.tables_onLoader loader _
  | tryLoad loader p => exact w.tables_onLoader loader _
  | loadConfigured loader => exact w.tables_onLoader loader _
  | forget loader p => exact w.tables_onLoader loader _
  | forgetOf loader plugin => exact w.tables_onLoader loader _
  | _ => cases ha

theorem find?_handles_after (ha : ¬ w.Assigns a name) :
    (w.after a).handles.find? name = w.handles.find? name := by
  -- an action on what is not there leaves everything as it is, so its names count only if it is there
  have hsome : ∀ {source : String} {x : Holder}, w.handles.find? source = some x →
      (w.handles.find? source).isSome = true := fun hx => by rw [hx]; rfl
  have hstay : ∀ {source : String} {α : Type} {f : Holder → World → α × World},
      (∀ x, w.handles.find? source = some x →
        (f x w).2.handles.find? name = w.handles.find? name) →
      (w.onHandle source f).2.handles.find? name = w.handles.find? name :=
    fun hf => onHandle_induction (P := fun v => v.handles.find? name = w.handles.find? name) rfl hf
  cases a with
  | newLoader | dropLoader | load | tryLoad | loadConfigured | forget | forgetOf =>
    exact congrArg (find? · name) (tables_after_of_loader rfl).1
  | instantiate loader plugin goal candidates =>
    simp only [after, perform, Answer.ofOption, instantiate]
    split
    · rfl
    · next L hL =>
      rw [find?_keep, if_neg]
      exact fun hgoal => ha ⟨hgoal, by rw [hL]; rfl⟩
  | newHandle goal candidates =>
    exact (w.find?_keep goal name _).trans (if_neg ha)
  | cloneHandle source goal =>
    refine hstay fun x hx => ?_
    rw [find?_keep, if_neg]
    exact fun hgoal => ha ⟨hgoal, hsome hx⟩
  | takeHandle source goal =>
    refine hstay fun x hx => ?_
    have hne : ¬ (source = name ∨ goal = name) := fun h => ha ⟨h, hsome hx⟩
    rw [find?_keep, if_neg fun h => hne (.inr h)]
    exact find?_put_of_ne _ _ fun h => hne (.inl h.symm)
  | specialize source goal candidates =>
    refine hstay fun x hx => ?_
    rw [find?_keep, if_neg]
    exact fun hgoal => ha ⟨hgoal, hsome hx⟩
  | generalize source goal =>
    refine hstay fun x hx => ?_
    have hne : ¬ (source = name ∨ goal = name) := fun h => ha ⟨h, hsome hx⟩
    rw [find?_keep, if_neg fun h => hne (.inr h), find?_erase, if_neg]
    simpa using fun h => hne (.inl h)
  | resetHandle goal =>
    refine hstay fun x _ => ?_
    exact find?_put_of_ne _ _ fun h => ha h.symm
  | dropHandle goal =>
    simp only [after, perform, Answer.of, dropHandle]
    split
    · rfl
    · have hne : ¬ goal = name := ha
      rw [find?_erase, if_neg]
      simpa using hne
  | query | require | queryNamed | find | findTwice => exact hstay fun _ _ => rfl
  | share source i goal =>
    refine hstay fun _ _ => ?_
    simp only
    split <;> rfl
  | callShared source arg =>
    simp only [after, perform, Answer.ofOption, callShared]
    split <;> rfl
  | cloneShared source goal =>
    simp only [after, perform, Answer.ofOption, cloneShared]
    split <;> rfl
  | handleOfShared source goal =>
    simp only [after, perform, Answer.ofOption, handleOfShared]
    split
    · rfl
    · next s hs =>
      rw [find?_keep, if_neg]
      exact fun hgoal => ha ⟨hgoal, by rw [hs]; rfl⟩
  | dropShared source =>
    simp only [after, perform, Answer.of, dropShared]
    split <;> rfl
  | changeFiles change => rfl

theorem find?_shares_after (ha : ¬ w.AssignsShared a name) :
    (w.after a).shares.find? name = w.shares.find? name := by
  have hstay : ∀ {source : String} {α : Type} {f : Holder → World → α × World},
      (∀ x, w.handles.find? source = some x → (f x w).2.shares.find? name = w.shares.find? name) →
      (w.onHandle source f).2.shares.find? name = w.shares.find? name :=
    fun hf => onHandle_induction (P := fun v => v.shares.find? name = w.shares.find? name) rfl hf
  cases a with
  | newLoader | dropLoader | load | tryLoad | loadConfigured | forget | forgetOf =>
    exact congrArg (find? · name) (tables_after_of_loader rfl).2
  | instantiate loader plugin goal candidates =>
    simp only [after, perform, Answer.ofOption, instantiate]
    split <;> rfl
  | newHandle | changeFiles => rfl
  | cloneHandle | takeHandle | specialize | generalize | resetHandle | query | require | queryNamed
    | find | findTwice => exact hstay fun _ _ => rfl
  | dropHandle goal =>
    simp only [after, perform, Answer.of, dropHandle]
    split <;> rfl
  | share source i goal =>
    refine hstay fun x hx => ?_
    simp only
    split
    · next owner p howner hp =>
      rw [find?_keepShared, if_neg]
      refine fun hgoal => ha ⟨hgoal, ⟨owner, p, i⟩, ?_⟩
      simp only [World.share, onHandle, hx, howner, hp]
    · rfl
  | callShared source arg =>
    simp only [after, perform, Answer.ofOption, callShared]
    split <;> rfl
  | cloneShared source goal =>
    simp only [after, perform, Answer.ofOption, cloneShared]
    split
    · rfl
    · next s hs =>
      rw [find?_keepShared, if_neg]
      exact fun hgoal => ha ⟨hgoal, by rw [hs]; rfl⟩
  | handleOfShared source goal =>
    simp only [after, perform, Answer.ofOption, handleOfShared]
    split <;> rfl
  | dropShared goal =>
    have hne : ¬ goal = name := ha
    simp only [after, perform, Answer.of, dropShared]
    split
    · rfl
    · rw [find?_erase, if_neg]
      simpa using hne

theorem find?_loaders_after (ha : a.loader? ≠ some name) :
    (w.after a).loaders.find? name = w.loaders.find? name := by
  cases w.loader_after a name with
  | same h => exact h
  | replaced hr _ =>
    cases a with
    | newLoader => exact absurd (congrArg some hr.1) ha
    | dropLoader => exact absurd (congrArg some hr) ha
    | _ => exact hr.elim
  | loaded _ hl _ =>
    cases a with
    | load | tryLoad | loadConfigured => exact absurd (congrArg some hl.1) ha
    | _ => exact hl.elim
  | forgot _ hf _ =>
    obtain ⟨_, -, hmatch⟩ := hf
    cases a with
    | forget | forgetOf => exact absurd (congrArg some hmatch.1) ha
    | _ => exact hmatch.elim

end World

end PluginHost
