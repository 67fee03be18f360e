import PluginHost.Proofs.CommandLine.Preload
import PluginHost.Proofs.Ordered
import PluginHost.Proofs.World.Loads
import PluginHost.Proofs.World.Registration

/-!
# Commands as sessions

A command does what a program could do step by step: it makes a loader from the settings and the environment,
loads what is to be loaded at the start, and then tries the libraries of the command in their order. What it
writes, and whether it succeeds, is what this program is answered.

* `World.run_tryLoads`: the answers are the ones that a command sees.
* `CommandLine.session`: the world in which the work of a command begins.
* `CommandLine.find?_session`: its loader is the one that the command makes.
-/

namespace PluginHost

set_option autoImplicit false

open PluginHost.Table

/-- The errors among the results of loads, in order. -/
def CommandLine.failures (results : List (Except LoadError (List String))) : List LoadError :=
  results.filterMap fun
    | .ok _ => none
    | .error e => some e

theorem CommandLine.failures_cons (result : Except LoadError (List String))
    (rest : List (Except LoadError (List String))) : failures (result :: rest) =
      match result with
      | .ok _ => failures rest
      | .error e => e :: failures rest := by
  cases result <;> rfl

theorem CommandLine.failures_eq_nil_iff {results : List (Except LoadError (List String))} :
    failures results = [] ↔ ∀ result ∈ results, ∃ names, result = .ok names := by
  rw [failures, List.filterMap_eq_nil_iff]
  refine forall₂_congr fun result _ => ?_
  cases result <;> simp

namespace World

/-! ## Loads in a row -/

variable {w : World} {loader : String} {L : Loader}

/-- Libraries that are listed are tried one after the other. -/
theorem run_tryLoads (hL : w.loaders.find? loader = some L) (paths : List Path) :
    ∃ results : List (Except LoadError (List String)),
      w.answers (paths.map (.tryLoad loader)) = results.map .loaded ∧
      (CommandLine.loadListed L w.host paths).1 = CommandLine.failures results ∧
      (w.run (paths.map (.tryLoad loader))).loaders.find? loader =
        some (CommandLine.loadListed L w.host paths).2.1 := by
  induction paths generalizing w L with
  | nil => exact ⟨[], rfl, rfl, hL⟩
  | cons p rest ih =>
    have hloader := find?_after_tryLoad hL p
    obtain ⟨results, hanswers, herrors, hlast⟩ := ih hloader
    rw [host_after_tryLoad hL] at herrors hlast
    refine ⟨(L.tryLoad w.host p).1 :: results, ?_, ?_, ?_⟩
    · simp only [List.map_cons, answers, hanswers, perform_tryLoad hL]
    · rw [CommandLine.loadListed_cons, CommandLine.failures_cons]
      dsimp only
      cases (L.tryLoad w.host p).1 with
      | ok names => exact herrors
      | error e => exact congrArg (e :: ·) herrors
    · rw [CommandLine.loadListed_cons]
      exact hlast

theorem answer_instantiate (hL : w.loaders.find? loader = some L) (plugin handle : String) :
    (w.perform (.instantiate loader plugin handle none)).1 = .handle (L.instantiate w.host plugin).1 := by
  simp only [perform, Answer.ofOption, World.instantiate, hL]

end World

namespace CommandLine

/-! ## Settings -/

/-- Where the settings of a command come from. -/
def Options.source (o : Options) : Config.Source :=
  match o.config with
  | .none => .standard
  | .some p => .file p

variable {files : FileTree} {env : Environment} {r : Request} {config : Config}

theorem effectiveConfig_of_unreadable {p : Path} {e : ConfigError} (hp : r.options.config = some p)
    (he : Config.ofFile files p = .error e) :
    effectiveConfig files env r.options.config = .error (unreadableConfig p e) := by
  simp only [effectiveConfig, baseConfig, hp, he]

theorem effectiveConfig_of_read {base : Config} (hbase : r.options.source.read files = .ok base) :
    effectiveConfig files env r.options.config =
      match base.withOverrides env with
      | .ok c => .ok c
      | .error e => .error (invalidEnvironment e) := by
  have hread : baseConfig files r.options.config = .ok base := by
    unfold Options.source at hbase
    cases hp : r.options.config with
    | none =>
      rw [hp] at hbase
      exact congrArg Except.ok (Except.ok.inj hbase)
    | some p =>
      rw [hp] at hbase
      have hfile : Config.ofFile files p = .ok base := hbase
      simp only [baseConfig, hfile]
  cases hoverrides : base.withOverrides env <;> simp only [effectiveConfig, hread, hoverrides]

/-- The settings of a command are those of its source, with the environment on top. -/
theorem effectiveConfig_eq_ok_iff : effectiveConfig files env r.options.config = .ok config ↔
    Config.effective files r.options.source env = .ok config := by
  unfold Config.effective
  cases hbase : r.options.source.read files with
  | ok base =>
    rw [effectiveConfig_of_read hbase]
    show _ ↔ base.withOverrides env = .ok config
    cases base.withOverrides env <;> simp
  | error e =>
    cases hp : r.options.config with
    | none => simp [Options.source, hp, Config.Source.read] at hbase
    | some p =>
      have hfile : Config.ofFile files p = .error e := by
        rw [Options.source, hp] at hbase
        exact hbase
      rw [← hp, effectiveConfig_of_unreadable hp hfile]
      constructor <;> intro h <;> cases h

/-! ## Sessions -/

/-- A loader was made from the settings, and it loaded what is to be loaded at the start. -/
def session (files : FileTree) (env : Environment) (r : Request) (config : Config) : World :=
  (World.start files).run
    (.newLoader "loader" r.options.source env :: config.preload.map (.load "loader"))

theorem reachable_session (files : FileTree) (env : Environment) (r : Request) (config : Config) :
    (session files env r config).Reachable := (World.Reachable.start files).run _

theorem find?_session (hconfig : Config.effective files r.options.source env = .ok config) :
    let loaded := (Loader.withConfig config).loadConfigured (Host.start files)
    (session files env r config).loaders.find? "loader" = some loaded.2.1 ∧
      (session files env r config).host = loaded.2.2 := by
  have hafter : (World.start files).after (.newLoader "loader" r.options.source env) =
      ⟨.start files, [("loader", .withConfig config)], [], []⟩ := by
    have hstart : (World.start files).host.files = files := rfl
    simp only [World.after, World.perform, Answer.of, World.newLoader, hstart, hconfig]
    rfl
  have hloader : ((World.start files).after (.newLoader "loader" r.options.source env)).loaders.find? "loader" =
      some (.withConfig config) := by
    rw [hafter]
    rfl
  have hloaded := World.run_loads hloader config.preload
  rw [hafter] at hloaded
  have hsession : session files env r config = World.run ⟨.start files, [("loader", .withConfig config)], [], []⟩
      (config.preload.map (.load "loader")) := by
    rw [session, World.run, List.foldl_cons, hafter]
    rfl
  rw [hsession, hloaded]
  exact ⟨World.find?_become _ _ _, rfl⟩

end CommandLine

end PluginHost
