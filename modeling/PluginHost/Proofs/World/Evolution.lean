import PluginHost.Proofs.FileTree.WellFormed
import PluginHost.Proofs.Host.Strings
import PluginHost.Proofs.Loader.Frame
import PluginHost.World.Action

/-!
# What actions do to the host

An action that changes files changes nothing else. Every other action opens paths and gives back holds, and
leaves the files as they are.

* `World.evolves_after`: an action that does not change files.
* `World.host_run`: what every change of the files and every such action keeps, a run keeps.
* `World.wellFormed_run`: the files stay well-formed.
* `World.unambiguous_of_reachable`: no string leads to two mappings.
-/

namespace PluginHost

set_option autoImplicit false

open Host (Evolves)

/-! ## Handles -/

namespace Handle

variable (handle : Handle) (h : Host)

theorem evolves_query (interface : String) : h.Evolves (handle.query h interface).2 := by
  unfold query
  split
  · exact .refl h
  · exact h.evolves_resolve _ interface

theorem evolves_retain : h.Evolves (handle.retain h) := by
  unfold retain
  split
  · exact .refl h
  · exact h.evolves_retain _

theorem evolves_release : h.Evolves (handle.release h) := by
  unfold release
  split
  · exact .refl h
  · exact h.evolves_release _

end Handle

theorem Specialized.evolves_bind (handle : Handle) (candidates : Candidates) (h : Host) :
    h.Evolves (bind handle candidates h).2 := by
  have hall : ∀ interfaces, h.Evolves (resolveAll handle h interfaces).2 := by
    intro interfaces
    induction interfaces generalizing h with
    | nil => exact .refl h
    | cons i rest ih => exact (handle.evolves_query h i.name).trans (ih _)
  exact hall candidates.interfaces

theorem Holder.evolves_make (handle : Handle) (candidates : Option Candidates) (h : Host) :
    h.Evolves (make handle candidates h).2 := by
  cases candidates with
  | none => exact .refl h
  | some c => exact Specialized.evolves_bind handle c h

theorem Holder.evolves_query (x : Holder) (h : Host) (i : Interface) : h.Evolves (x.query h i).2 := by
  cases x with
  | generic handle => exact handle.evolves_query h i.name
  | specialized s =>
    simp only [query, Specialized.query]
    split
    · exact .refl h
    · exact s.handle.evolves_query h i.name

namespace World

variable (w : World)

/-! ## What is kept -/

theorem evolves_keep {h : Host} {v : World} (hv : h.Evolves v.host) (name : String) (x : Holder) :
    h.Evolves (v.keep name x).host := by
  simp only [keep]
  split
  · exact hv.trans (Handle.evolves_release _ v.host)
  · exact hv

theorem evolves_keepShared {h : Host} {v : World} (hv : h.Evolves v.host) (name : String)
    (s : Shared) : h.Evolves (v.keepShared name s).host := by
  simp only [keepShared]
  split
  · exact hv.trans (v.host.evolves_release _)
  · exact hv

theorem evolves_onLoader {α : Type} {loader : String} {f : Loader → Host → α × Loader × Host}
    (hf : ∀ L, w.host.Evolves (f L w.host).2.2) : w.host.Evolves (w.onLoader loader f).2.host := by
  unfold onLoader
  split
  · exact .refl w.host
  · exact hf _

theorem evolves_onHandle {α : Type} {name : String} {f : Holder → World → α × World}
    (hf : ∀ x, w.host.Evolves (f x w).2.host) : w.host.Evolves (w.onHandle name f).2.host := by
  unfold onHandle
  split
  · exact .refl w.host
  · exact hf _

theorem evolves_useFound (handle : Handle) (found : Option Pointer × Host) (arg : Argument) :
    found.2.Evolves (useFound handle found arg).2 := by
  unfold useFound
  split
  · exact found.2.evolves_use _ _ _
  · exact .refl found.2

/-! ## Actions -/

theorem evolves_after {a : Action} (ha : ∀ change, a ≠ .changeFiles change) :
    w.host.Evolves (w.after a).host := by
  cases a with
  | newLoader name source env =>
    simp only [after, perform, Answer.of, newLoader]
    split
    · exact .refl w.host
    · simp only
      split
      · exact Loader.evolves_dispose _ w.host
      · exact .refl w.host
  | dropLoader name =>
    simp only [after, perform, Answer.of, dropLoader]
    split
    · exact .refl w.host
    · exact Loader.evolves_dispose _ w.host
  | load name p => exact w.evolves_onLoader fun L => L.evolves_load w.host p
  | tryLoad name p => exact w.evolves_onLoader fun L => L.evolves_tryLoad w.host p
  | loadConfigured name => exact w.evolves_onLoader fun L => L.evolves_loadAll w.host L.config.preload
  | forget name p => exact w.evolves_onLoader fun L => L.evolves_forget w.host p
  | forgetOf name plugin => exact w.evolves_onLoader fun L => L.evolves_forgetOf w.host plugin
  | instantiate name plugin goal candidates =>
    simp only [after, perform, Answer.ofOption, instantiate]
    split
    · exact .refl w.host
    · next L _ =>
      refine evolves_keep ?_ goal _
      exact (L.evolves_instantiate w.host plugin).trans (Holder.evolves_make _ candidates _)
  | newHandle name candidates => exact evolves_keep (.refl w.host) name _
  | cloneHandle name goal =>
    exact w.evolves_onHandle fun x => evolves_keep (x.handle.evolves_retain w.host) goal _
  | takeHandle name goal =>
    refine w.evolves_onHandle fun x => evolves_keep ?_ goal _
    exact .refl w.host
  | specialize name goal candidates =>
    refine w.evolves_onHandle fun x => evolves_keep ?_ goal _
    exact (x.handle.evolves_retain w.host).trans (Specialized.evolves_bind _ candidates _)
  | generalize name goal =>
    refine w.evolves_onHandle fun x => evolves_keep ?_ goal _
    exact .refl w.host
  | resetHandle name => exact w.evolves_onHandle fun x => x.handle.evolves_release w.host
  | dropHandle name =>
    simp only [after, perform, Answer.of, dropHandle]
    split
    · exact .refl w.host
    · exact Handle.evolves_release _ w.host
  | query name i arg =>
    exact w.evolves_onHandle fun x => (x.evolves_query w.host i).trans (evolves_useFound _ _ arg)
  | require name i arg =>
    exact w.evolves_onHandle fun x => (x.evolves_query w.host i).trans (evolves_useFound _ _ arg)
  | queryNamed name interface arg =>
    exact w.evolves_onHandle fun x =>
      (x.handle.evolves_query w.host interface).trans (evolves_useFound _ _ arg)
  | find name interface => exact w.evolves_onHandle fun x => x.handle.evolves_query w.host interface
  | findTwice name i =>
    exact w.evolves_onHandle fun x =>
      (x.evolves_query w.host i).trans (x.handle.evolves_query _ i.name)
  | share name i goal =>
    refine w.evolves_onHandle fun x => ?_
    have hquery := x.evolves_query w.host i
    simp only
    split
    · exact evolves_keepShared (hquery.trans (Host.evolves_retain _ _)) goal _
    · exact hquery
  | callShared name arg =>
    simp only [after, perform, Answer.ofOption, callShared]
    split
    · exact .refl w.host
    · exact w.host.evolves_use _ _ arg
  | cloneShared name goal =>
    simp only [after, perform, Answer.ofOption, cloneShared]
    split
    · exact .refl w.host
    · exact evolves_keepShared (w.host.evolves_retain _) goal _
  | handleOfShared name goal =>
    simp only [after, perform, Answer.ofOption, handleOfShared]
    split
    · exact .refl w.host
    · exact evolves_keep (w.host.evolves_retain _) goal _
  | dropShared name =>
    simp only [after, perform, Answer.of, dropShared]
    split
    · exact .refl w.host
    · exact w.host.evolves_release _
  | changeFiles change => exact absurd rfl (ha change)

/-! ## Runs -/

/-- What every change of the files and every single thing that happens to mappings keeps, a run keeps. -/
theorem host_run {P : Host → Prop} (hmoves : ∀ h h', Host.Moves h h' → P h → P h')
    (hfiles : ∀ h change, P h → P { h with files := h.files.apply change }) {w : World}
    (hstart : P w.host) (actions : List Action) : P (w.run actions).host := by
  induction actions generalizing w with
  | nil => exact hstart
  | cons a rest ih =>
    refine ih ?_
    by_cases ha : ∃ change, a = .changeFiles change
    · obtain ⟨change, rfl⟩ := ha
      exact hfiles w.host change hstart
    · exact (w.evolves_after fun change heq => ha ⟨change, heq⟩).invariant hmoves hstart

theorem wellFormed_run {w : World} (hw : w.host.files.WellFormed) (actions : List Action) :
    (w.run actions).host.files.WellFormed := by
  refine host_run (P := fun h => h.files.WellFormed) (fun h h' hm hwf => ?_)
    (fun h change hwf => hwf.apply change) hw actions
  rw [(Evolves.of_moves hm).files]
  exact hwf

theorem separate_run {w : World} (hw : w.host.Separate) (actions : List Action) :
    (w.run actions).host.Separate :=
  host_run (fun _ _ hm hs => hs.moves hm) (fun _ _ hs => ⟨hs.distinct, hs.below, hs.apart⟩) hw actions

theorem unambiguous_of_reachable {w : World} (hw : Reachable w) : w.host.Unambiguous := by
  induction hw with
  | start files => exact Host.unambiguous_start files
  | @step w a _ ih =>
    apply host_run (P := Host.Unambiguous) (w := w) (fun _ _ hm hu => hu.moves hm) ?_ ih [a]
    intro h change hu
    have hs := hu.separate
    exact ⟨⟨hs.distinct, hs.below, hs.apart⟩, hu.apart⟩

end World

end PluginHost
