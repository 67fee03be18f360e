import PluginHost.Proofs.Handle.Binding
import PluginHost.World.Action

/-!
# Specialized handles are an access path

However the specialized handles of a world came about, they answer as the generic handles inside them do.
Every action that makes, moves, copies or empties one keeps its slots in step with what it holds.

* `World.Bound`: every specialized handle of a world is bound.
* `World.generic`: the world with the generic handle in place of the specialized one.
* `World.Transparent`: no answer tells the two worlds apart.
-/

namespace PluginHost.World

set_option autoImplicit false

open PluginHost.Table

/-! ## Bound worlds -/

/-- Every specialized handle is bound. -/
def Bound (w : World) : Prop := ∀ name x, w.handles.find? name = some x → x.Bound

namespace Bound

variable {w w' : World} {x : Holder}

theorem of_handles (hb : w.Bound) (heq : w'.handles = w.handles) : w'.Bound := by
  intro name y hy
  rw [heq] at hy
  exact hb name y hy

theorem put (hb : w.Bound) (hx : x.Bound) (name : String)
    (heq : w'.handles = w.handles.put name x) : w'.Bound := by
  intro other y hy
  rw [heq, find?_put] at hy
  split at hy
  · rw [← Option.some.inj hy]
    exact hx
  · exact hb other y hy

theorem erase (hb : w.Bound) (name : String) (heq : w'.handles = w.handles.erase name) : w'.Bound := by
  intro other y hy
  rw [heq, find?_erase] at hy
  split at hy
  · simp at hy
  · exact hb other y hy

theorem onLoader {α : Type} {f : Loader → Host → α × Loader × Host} (hb : w.Bound) (name : String) :
    (w.onLoader name f).2.Bound := by
  refine hb.of_handles ?_
  unfold World.onLoader
  split <;> rfl

theorem onHandle {α : Type} {f : Holder → World → α × World} (hb : w.Bound) (name : String)
    (hf : ∀ x, w.handles.find? name = some x → (f x w).2.Bound) : (w.onHandle name f).2.Bound := by
  unfold World.onHandle
  split
  · exact hb
  · next x hx => exact hf x hx

theorem after (hb : w.Bound) (a : Action) : (w.after a).Bound := by
  cases a with
  | newLoader loader source env =>
    refine hb.of_handles ?_
    simp only [World.after, perform, Answer.of, newLoader]
    split <;> rfl
  | dropLoader loader =>
    refine hb.of_handles ?_
    simp only [World.after, perform, Answer.of, dropLoader]
    split <;> rfl
  | load loader p => exact hb.onLoader loader
  | tryLoad loader p => exact hb.onLoader loader
  | loadConfigured loader => exact hb.onLoader loader
  | forget loader p => exact hb.onLoader loader
  | forgetOf loader plugin => exact hb.onLoader loader
  | instantiate loader plugin name candidates =>
    simp only [World.after, perform, Answer.ofOption, instantiate]
    split
    · exact hb
    · exact hb.put (Holder.bound_make _ _ _) name rfl
  | newHandle name candidates => exact hb.put (Holder.bound_empty candidates) name rfl
  | cloneHandle name goal => exact hb.onHandle name fun x hx => hb.put (hb name x hx) goal rfl
  | takeHandle name goal =>
    refine hb.onHandle name fun x hx => ?_
    have hemptied : Bound { w with handles := w.handles.put name x.emptied } :=
      hb.put x.bound_emptied name rfl
    exact hemptied.put (hb name x hx) goal rfl
  | specialize name goal candidates =>
    refine hb.onHandle name fun x _ => hb.put (x := .specialized _) ?_ goal rfl
    exact Specialized.bound_bind _ _ _
  | generalize name goal =>
    refine hb.onHandle name fun x _ => ?_
    have herased : Bound { w with handles := w.handles.erase name } := hb.erase name rfl
    exact herased.put (x := .generic x.handle) trivial goal rfl
  | resetHandle name => exact hb.onHandle name fun x _ => hb.put x.bound_emptied name rfl
  | dropHandle name =>
    simp only [World.after, perform, Answer.of, dropHandle]
    split
    · exact hb
    · exact hb.erase name rfl
  | query name i arg => exact hb.onHandle name fun _ _ => hb.of_handles rfl
  | require name i arg => exact hb.onHandle name fun _ _ => hb.of_handles rfl
  | queryNamed name interface arg => exact hb.onHandle name fun _ _ => hb.of_handles rfl
  | find name interface => exact hb.onHandle name fun _ _ => hb.of_handles rfl
  | findTwice name i => exact hb.onHandle name fun _ _ => hb.of_handles rfl
  | share name i goal =>
    refine hb.onHandle name fun _ _ => hb.of_handles ?_
    simp only
    split <;> rfl
  | callShared name arg =>
    refine hb.of_handles ?_
    simp only [World.after, perform, Answer.ofOption, callShared]
    split <;> rfl
  | cloneShared name goal =>
    refine hb.of_handles ?_
    simp only [World.after, perform, Answer.ofOption, cloneShared]
    split <;> rfl
  | handleOfShared name goal =>
    simp only [World.after, perform, Answer.ofOption, handleOfShared]
    split
    · exact hb
    · exact hb.put (x := .generic _) trivial goal rfl
  | dropShared name =>
    refine hb.of_handles ?_
    simp only [World.after, perform, Answer.of, dropShared]
    split <;> rfl
  | changeFiles change => exact hb.of_handles rfl

end Bound

theorem bound_of_reachable {w : World} (hw : Reachable w) : w.Bound := by
  induction hw with
  | start files => intro name x hx; simp [start] at hx
  | step a _ ih => exact ih.after a

/-! ## The same calls on the generic handle -/

/-- The world with the generic handle in place of a specialized one. -/
def generic (w : World) (name : String) (s : Specialized) : World :=
  { w with handles := w.handles.put name (.generic s.handle) }

/-- No answer tells a specialized handle from the generic handle inside it. -/
structure Transparent (w : World) (name : String) (s : Specialized) : Prop where
  /-- Every slot holds what the generic handle finds for its candidate. -/
  slots : s.slots = s.candidates.interfaces.map fun c => s.handle.find? c.name
  /-- When the handle is empty, so are the slots. -/
  empty : s.handle.isEmpty = true → ∀ p ∈ s.slots, p = none
  /-- The same capabilities are found. -/
  found : ∀ i h, (s.query h i).1 = (s.handle.query h i.name).1
  /-- To find a candidate no plugin code is called. -/
  quiet : ∀ i h, s.candidates.covers i = true → (s.query h i).2 = h
  /-- Queries and uses have the same answers. -/
  query : ∀ i arg, (w.query name i arg).1 = ((w.generic name s).query name i arg).1
  /-- Queries that must succeed have the same answers and fail with the same text. -/
  require : ∀ i arg, (w.require name i arg).1 = ((w.generic name s).require name i arg).1
  /-- The same capabilities with the same owners are shared and kept. -/
  share : ∀ i goal, (w.share name i goal).1 = ((w.generic name s).share name i goal).1 ∧
    (w.share name i goal).2.shares = ((w.generic name s).share name i goal).2.shares

/-- A use that finds the same capability, with the same instances alive, has the same answer. -/
theorem useFound_fst_congr {handle : Handle} {found found' : Option Pointer × Host}
    (hfst : found.1 = found'.1) (hi : found.2.instances = found'.2.instances) (arg : Argument) :
    (useFound handle found arg).1 = (useFound handle found' arg).1 := by
  unfold useFound
  rw [hfst]
  split
  · simp only [Host.use_fst_congr hi]
  · rfl

/-- Every specialized handle of every reachable world is transparent. -/
theorem transparent {w : World} (hw : Reachable w) {name : String} {s : Specialized}
    (hs : w.handles.find? name = some (.specialized s)) : Transparent w name s := by
  have hb : s.Bound := bound_of_reachable hw name _ hs
  have hgeneric : (w.generic name s).handles.find? name = some (.generic s.handle) :=
    find?_put_self _ _ _
  have hfound : ∀ i h, (s.query h i).1 = (s.handle.query h i.name).1 := by
    intro i h
    rw [hb.query_fst, Handle.query_fst]
  have hused : ∀ i arg, (useFound s.handle (s.query w.host i) arg).1 =
      (useFound s.handle (s.handle.query w.host i.name) arg).1 := by
    intro i arg
    refine useFound_fst_congr (hfound i w.host) ?_ arg
    rw [Handle.instances_query]
    exact Holder.instances_query (.specialized s) w.host i
  constructor
  case slots => exact hb
  case empty => exact fun he p hp => hb.slots_of_isEmpty he hp
  case found => exact hfound
  case quiet => exact fun i h hc => Specialized.query_snd hc h
  case query =>
    intro i arg
    simp only [World.query, onHandle, hs, hgeneric]
    exact congrArg some (hused i arg)
  case require =>
    intro i arg
    simp only [World.require, onHandle, hs, hgeneric, Holder.handle, Holder.query]
    have h := hused i arg
    simp only [generic] at h ⊢
    rw [h]
  case share =>
    intro i goal
    simp only [World.share, onHandle, hs, hgeneric, Holder.handle, Holder.query]
    have h := hfound i w.host
    simp only [generic] at h ⊢
    rw [h]
    split
    · exact ⟨rfl, rfl⟩
    · exact ⟨rfl, rfl⟩

/-- An instance is bound to two candidates when it is made, and then to another list that names one
interface twice and one that the plugin does not provide. -/
def respecialized : World :=
  (start (.withDirectory ["w"])).run
    [.changeFiles (.write ⟨"/w/a.so"⟩ (.library Image.dummyPlugins)),
      .newLoader "first" .standard ⟨[]⟩,
      .load "first" ⟨"/w/a.so"⟩,
      .instantiate "first" "dynaplug_dummy_plugins::DummyMultiPlugin" "h"
        (some ⟨[Catalog.intBase, Catalog.nameBase]⟩),
      .specialize "h" "s" ⟨[Catalog.nameBase, Catalog.someInterface, Catalog.nameBase]⟩]

theorem transparent_of_respecialized : Reachable respecialized ∧
    ∃ s, respecialized.handles.find? "s" = some (.specialized s) ∧
      s.candidates = ⟨[Catalog.nameBase, Catalog.someInterface, Catalog.nameBase]⟩ ∧
      Transparent respecialized "s" s := by
  have hreach : Reachable respecialized := (Reachable.start _).run _
  have hcandidates : (respecialized.handles.find? "s").bind Holder.candidates =
      some ⟨[Catalog.nameBase, Catalog.someInterface, Catalog.nameBase]⟩ := by decide +kernel
  obtain ⟨x, hx, hc⟩ := Option.bind_eq_some_iff.1 hcandidates
  cases x with
  | generic handle => simp [Holder.candidates] at hc
  | specialized s => exact ⟨hreach, s, hx, Option.some.inj hc, transparent hreach hx⟩

end PluginHost.World
