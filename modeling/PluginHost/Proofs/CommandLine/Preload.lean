import PluginHost.CommandLine
import PluginHost.Proofs.Loader.Agreement

/-!
# Commands of loaders that agree

What a command writes follows from what its loader answers, so it is the same for loaders that agree. In
particular the libraries that a command cannot load at its start leave no trace in its outcome, which is without
the log.

* `CommandLine.loadListed_of_agrees`: the errors of listed libraries.
* `CommandLine.work_of_agrees`: the outcome of a command.
* `CommandLine.execute_loadable`: the outcome without the libraries that fail at the start.
-/

namespace PluginHost.CommandLine

set_option autoImplicit false

variable {L L' : Loader} {h h' : Host}

theorem loadListed_cons (L : Loader) (h : Host) (p : Path) (rest : List Path) :
    loadListed L h (p :: rest) =
      let loaded := L.tryLoad h p
      let others := loadListed loaded.2.1 loaded.2.2 rest
      (match loaded.1 with
        | .ok _ => others.1
        | .error e => e :: others.1,
        others.2) := by
  rw [loadListed]
  split
  · next heq => simp only [heq]
  · next heq => simp only [heq]

theorem loadListed_of_agrees (ha : Loader.Agrees L L' h h') (libraries : List Path) :
    (loadListed L' h' libraries).1 = (loadListed L h libraries).1 ∧
      Loader.Agrees (loadListed L h libraries).2.1 (loadListed L' h' libraries).2.1
        (loadListed L h libraries).2.2 (loadListed L' h' libraries).2.2 := by
  induction libraries generalizing L L' h h' with
  | nil => exact ⟨rfl, ha⟩
  | cons p rest ih =>
    obtain ⟨hanswer, hafter⟩ := ha.tryLoad p
    obtain ⟨herrors, hrest⟩ := ih hafter
    rw [loadListed_cons, loadListed_cons]
    refine ⟨?_, hrest⟩
    simp only [hanswer, herrors]

/-! ## Instances -/

/-- What is written of the handle that was made for a plugin. -/
def present (handle : Handle) (plugin : String) : Outcome :=
  match handle.info with
  | some info => .success (instanceReport handle info)
  | none => .failure "" "" ⟨"plugin " ++ plugin ++ " is not provided by the loaded libraries", []⟩

theorem instantiate_eq (L : Loader) (h : Host) (library : Path) (plugin : String) :
    instantiate L h library plugin =
      let loaded := L.tryLoad h library
      match loaded.1 with
      | .ok _ => present (loaded.2.1.instantiate loaded.2.2 plugin).1 plugin
      | .error e => .failure "" "" ⟨"cannot use library " ++ library.text, Failure.causesOfLoad e⟩ := by
  rw [instantiate]
  split
  · next heq => simp only [heq]
  · next heq =>
    simp only [heq]
    rfl

theorem present_congr {handle handle' : Handle} (hinfo : handle'.info = handle.info)
    (hfind : ∀ i, (handle'.find? i).isSome = (handle.find? i).isSome) (plugin : String) :
    present handle' plugin = present handle plugin := by
  have hreport : ∀ info, instanceReport handle' info = instanceReport handle info := fun info => by
    have hlines : interfaceLine handle' = interfaceLine handle := funext fun i => by
      rw [interfaceLine, interfaceLine, hfind]
    rw [instanceReport, instanceReport, hlines]
  simp only [present, hinfo, hreport]

/-! ## Commands -/

/-- Loaders that agree do the same work. -/
theorem work_of_agrees (ha : Loader.Agrees L L' h h') (c : Command) : work L' h' c = work L h c := by
  cases c with
  | inspect libraries =>
    obtain ⟨herrors, hloaded⟩ := loadListed_of_agrees ha libraries
    simp only [work, inspect, herrors, hloaded.dump]
  | instantiate library plugin =>
    obtain ⟨hanswer, hloaded⟩ := ha.tryLoad library
    obtain ⟨hinfo, hfind⟩ := hloaded.instantiate plugin
    simp only [work, instantiate_eq, hanswer, present_congr hinfo hfind]
  | implementing interface libraries =>
    obtain ⟨herrors, hloaded⟩ := loadListed_of_agrees ha libraries
    simp only [work, implementing, herrors, hloaded.implementing]

/-- A command writes the same when the libraries that fail to load at its start are taken out of the
settings. -/
theorem execute_loadable {files : FileTree} (hfiles : files.Coherent) {env env' : Environment}
    {r r' : Request} {config : Config} (hcommand : r'.command = r.command)
    (hconfig : effectiveConfig files env r.options.config = .ok config)
    (hconfig' : effectiveConfig files env' r'.options.config = .ok { config with
      preload := (Loader.withConfig config).loadable (Host.start files) config.preload }) :
    execute files env' r' = execute files env r := by
  let others : Config := { config with
    preload := (Loader.withConfig config).loadable (Host.start files) config.preload }
  have hstart : Loader.Agrees (Loader.withConfig config) (Loader.withConfig others) (Host.start files)
      (Host.start files) :=
    ⟨rfl, rfl, hfiles, Host.faithful_start files, Host.faithful_start files⟩
  simp only [execute, hconfig, hconfig', hcommand]
  exact work_of_agrees (hstart.loadAll config.preload) r.command

end PluginHost.CommandLine
