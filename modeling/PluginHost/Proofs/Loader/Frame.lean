import PluginHost.Proofs.Host.Evolution
import PluginHost.Proofs.Loader.Index

/-!
# What loading and forgetting leave alone

Loading opens, registers and closes, and forgetting gives back; neither changes the files, and loading
leaves the settings of the loader as they are.

* `Loader.evolves_tryLoad`, `Loader.evolves_forget`, …: what happens to the host.
* `Loader.config_tryLoad`: the settings after loading.
-/

namespace PluginHost.Loader

set_option autoImplicit false

open Host (Evolves)

variable (L : Loader) (h : Host)

/-! ## Loading -/

theorem evolves_enter (library : Library) (info : PluginInfo) :
    h.Evolves (enter library L h info).2 := by
  simp only [enter]
  split
  · exact (h.evolves_retainLibrary library).trans (Host.evolves_releaseLibrary _ _)
  · exact h.evolves_retainLibrary library

theorem evolves_enterAll (library : Library) (infos : List PluginInfo) :
    h.Evolves (enterAll library L h infos).2 := by
  unfold enterAll
  induction infos generalizing L h with
  | nil => exact .refl h
  | cons info infos ih => exact (evolves_enter L h library info).trans (ih _ _)

theorem evolves_enlist (library : Library) : h.Evolves (enlist library L h).2 := by
  simp only [enlist]
  split
  · exact h.evolves_releaseLibrary _
  · exact .refl h

theorem evolves_register (key : Path) (o : Origin) (infos : List PluginInfo) :
    h.Evolves (L.register h key o infos).2.2 := by
  have hjudged := h.evolves_notes (L.verdicts key infos)
  simp only [register]
  split
  · exact hjudged.trans (Host.evolves_closeMapping _ _)
  · refine Evolves.trans ?_ (evolves_enlist _ _ _)
    refine Evolves.trans ?_ (evolves_enterAll _ _ _ _)
    exact hjudged.trans (Host.evolves_newLibrary _ _ _ _)

theorem evolves_probes (o : Origin) (ps : List Probe) : h.Evolves (ps.foldl (probe o) h) := by
  refine .foldl (fun h p => ?_) h ps
  cases p with
  | describe index => exact h.evolves_call o _
  | describeLegacy shape => exact h.evolves_call o _
  | notice n => exact h.evolves_note n

theorem evolves_warnOutdated (p : Path) (n : Negotiated) : h.Evolves (L.warnOutdated h p n) := by
  unfold warnOutdated
  split
  · exact h.evolves_note _
  · exact .refl h

theorem evolves_receive (p : Path) (o : Origin) (exports : Exports) :
    h.Evolves (L.receive h p o exports).2.2 := by
  have hread := (h.evolves_note (.declares p exports.version exports.infoSize)).trans
    (evolves_probes _ o (negotiate exports).1)
  simp only [receive]
  cases (negotiate exports).2 with
  | error e => exact hread.trans (Host.evolves_closeMapping _ _)
  | ok n =>
    refine (hread.trans (L.evolves_warnOutdated _ p n)).trans ?_
    exact (evolves_register _ _ _ _ _).trans (Host.evolves_note _ _)

theorem evolves_tryLoad (p : Path) : h.Evolves (L.tryLoad h p).2.2 := by
  simp only [tryLoad]
  split
  · have hopening := h.evolves_note (.opening p)
    cases hopen : (h.note (.opening p)).openLibrary p with
    | none => exact hopening
    | some found =>
      exact (hopening.trans (Host.evolves_openLibrary hopen)).trans (evolves_receive _ _ _ _ _)
  · exact .refl h

theorem evolves_load (p : Path) : h.Evolves (L.load h p).2.2 := by
  have htry := L.evolves_tryLoad h p
  unfold load
  split
  · next heq =>
    rw [heq] at htry
    exact htry
  · next heq =>
    rw [heq] at htry
    exact htry.trans (Host.evolves_note _ _)

theorem evolves_loadAll (paths : List Path) : h.Evolves (L.loadAll h paths).2.2 :=
  loadAll_induction (motive := fun _ h' => h.Evolves h') paths (.refl h)
    fun L' h' p hbefore => hbefore.trans (L'.evolves_load h' p)

theorem config_tryLoad (p : Path) : (L.tryLoad h p).2.1.config = L.config := by
  rcases L.tryLoad_loader h p with ⟨-, heq⟩ | ⟨_, _, -, -, -, heq⟩
  · rw [heq]
  · rw [heq]; rfl

/-! ## Forgetting -/

theorem evolves_releaseEntry (e : IndexEntry) : h.Evolves (releaseEntry h e) :=
  h.evolves_releaseLibrary e.library

theorem evolves_forget (p : Path) : h.Evolves (L.forget h p).2.2 := by
  unfold forget
  split
  · exact h.evolves_note _
  · next key _ =>
    split
    · exact .refl h
    · refine Evolves.trans ?_ (Host.evolves_releaseLibrary _ _)
      refine Evolves.trans ?_ (Host.evolves_note _ _)
      exact .foldl evolves_releaseEntry h _

theorem evolves_forgetOf (plugin : String) : h.Evolves (L.forgetOf h plugin).2.2 := by
  unfold forgetOf
  split
  · exact L.evolves_forget h _
  · exact h.evolves_note _

theorem evolves_dispose : h.Evolves (L.dispose h) :=
  Evolves.trans (.foldl Host.evolves_releaseLibrary h _) (.foldl evolves_releaseEntry _ _)

/-! ## Instances -/

theorem evolves_instantiate (plugin : String) : h.Evolves (L.instantiate h plugin).2 := by
  unfold instantiate
  split
  · exact h.evolves_instantiate _ _
  · exact h.evolves_note _

end PluginHost.Loader
