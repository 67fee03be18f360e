import PluginHost.Proofs.CommandLine.Session

/-!
# What commands write

A command that cannot read its settings says so and does nothing else. Every other command writes what its
session is answered. If libraries are listed, all of them are tried, the answer of the loader is written in
full, and then there is a line for each library that failed and a count of them; the libraries that are loaded
at the start count for nothing. A command that makes an instance writes which of its interfaces are there.

All of this is about the two texts of an `Outcome`: the log is in neither, and `LoadError.systemReason` and
`ConfigError.documentReason` are in the place of the words that the system and the reader of documents choose.

* `CommandLine.Reports`, `CommandLine.Presents`: what is written.
* `CommandLine.Succeeds`: when a command succeeds.
* `CommandLine.performs`: every command writes this, and succeeds exactly then.
-/

namespace PluginHost.CommandLine

set_option autoImplicit false

open PluginHost.Table

/-! ## Texts -/

def lines (texts : List String) : String := String.join (texts.map fun text => text ++ "\n")

/-- A line for each library that failed, and how many of those that were listed they are. -/
def complaint (errors : List LoadError) (listed : Nat) : String :=
  lines (errors.map fun e => "error: " ++ e.message) ++
    if errors = [] then ""
    else "Error: " ++ (toString errors.length ++ " of " ++ toString listed ++ " libraries failed to load") ++ "\n"

/-- The known plugins that implement an interface, in order, one on a line. -/
def Implementing (interface : String) (L : Loader) (text : String) : Prop :=
  ∃ names : List String, names.Pairwise (· < ·) ∧
    (∀ n, n ∈ names ↔ ∃ key e, L.index.find? key = some e ∧ e.info.implements interface = true ∧
      e.info.name = n) ∧
    text = lines names

theorem implementing_spec {L : Loader} (hd : L.index.Distinct) (interface : String) :
    Implementing interface L (String.join ((L.implementing interface).map fun p => p ++ "\n")) := by
  refine ⟨L.implementing interface, Ordered.sorted_ofList _, fun n => ?_, rfl⟩
  rw [Loader.implementing, Ordered.mem_ofList]
  constructor
  · intro hn
    obtain ⟨info, hinfo, rfl⟩ := List.mem_map.1 hn
    obtain ⟨hmem, himplements⟩ := List.mem_filter.1 hinfo
    obtain ⟨e, he, rfl⟩ := List.mem_map.1 hmem
    obtain ⟨key, hkey⟩ := exists_find?_of_mem_values hd he
    exact ⟨key, e, hkey, himplements, rfl⟩
  · rintro ⟨key, e, he, himplements, rfl⟩
    have hmem : e.info ∈ L.infos := List.mem_map_of_mem (mem_values_of_find? he)
    exact List.mem_map_of_mem (List.mem_filter.2 ⟨hmem, himplements⟩)

/-! ## Commands -/

/-- All libraries are tried, the loader answers, and then it is said which libraries failed. -/
structure Reports (o : Outcome) (w : World) (libraries : List Path) (Text : Loader → String → Prop) :
    Prop where
  stdout : ∃ L, (w.run (libraries.map (.tryLoad "loader"))).loaders.find? "loader" = some L ∧ Text L o.stdout
  stderr : ∃ results : List (Except LoadError (List String)),
    w.answers (libraries.map (.tryLoad "loader")) = results.map .loaded ∧
      o.stderr = complaint (failures results) libraries.length ∧
      o.code = if failures results = [] then 0 else 1

/-- The library is tried, a handle is made, and each interface of its plugin is looked for. -/
structure Presents (o : Outcome) (w : World) (library : Path) (plugin : String) : Prop where
  refused : ∀ e, (w.perform (.tryLoad "loader" library)).1 = .loaded (.error e) →
    o = ⟨1, "", (⟨"cannot use library " ++ library.text, Failure.causesOfLoad e⟩ : Failure).report⟩
  empty : ∀ names, (w.perform (.tryLoad "loader" library)).1 = .loaded (.ok names) →
    ((w.after (.tryLoad "loader" library)).perform (.instantiate "loader" plugin "handle" none)).1 =
      .handle .empty →
    o = ⟨1, "", (⟨"plugin " ++ plugin ++ " is not provided by the loaded libraries", []⟩ : Failure).report⟩
  bound : ∀ names x, (w.perform (.tryLoad "loader" library)).1 = .loaded (.ok names) →
    ((w.after (.tryLoad "loader" library)).perform (.instantiate "loader" plugin "handle" none)).1 =
      .handle (.of x) →
    o = ⟨0, lines (("Instantiated " ++ x.info.display) :: x.info.interfaceNames.map fun i =>
      "\t" ++ i ++ ": " ++ if (x.find? i).isSome then "resolved" else "unavailable"), ""⟩

/-- Every library that is listed loads, also if it registers nothing; a library that is to provide an
instance loads, and the loader binds a handle. -/
def Succeeds (w : World) : Command → Prop
  | .inspect libraries | .implementing _ libraries =>
    ∀ answer ∈ w.answers (libraries.map (.tryLoad "loader")), ∃ names, answer = .loaded (.ok names)
  | .instantiate library plugin =>
    (∃ names, (w.perform (.tryLoad "loader" library)).1 = .loaded (.ok names)) ∧
      ∃ x, ((w.after (.tryLoad "loader" library)).perform (.instantiate "loader" plugin "handle" none)).1 =
        .handle (.of x)

def Writes (o : Outcome) (w : World) : Command → Prop
  | .inspect libraries => Reports o w libraries fun L text => text = L.dump
  | .implementing interface libraries => Reports o w libraries (Implementing interface)
  | .instantiate library plugin => Presents o w library plugin

theorem instanceReport_eq (x : Instance) : instanceReport (.of x) x.info =
    lines (("Instantiated " ++ x.info.display) :: x.info.interfaceNames.map fun i =>
      "\t" ++ i ++ ": " ++ if (x.find? i).isSome then "resolved" else "unavailable") := by
  rw [instanceReport, lines, List.map_cons, String.join_cons, List.map_map]
  rfl

theorem conclude_eq (stdout : String) (listed : Nat) (errors : List LoadError) :
    conclude stdout listed errors = ⟨if errors = [] then 0 else 1, stdout, complaint errors listed⟩ := by
  have hlines : String.join (errors.map errorLine) = lines (errors.map fun e => "error: " ++ e.message) := by
    rw [lines, List.map_map]
    rfl
  rw [conclude, complaint, ← hlines]
  cases errors with
  | nil => rfl
  | cons e rest =>
    simp only [List.isEmpty_cons, Bool.false_eq_true, if_false, reduceCtorEq, Outcome.failure, Failure.report,
      Failure.causeLines_nil, String.append_empty]

section Session

variable {w : World} {L : Loader}

theorem reports_of_find? (hL : w.loaders.find? "loader" = some L) (libraries : List Path)
    {Text : Loader → String → Prop} {stdout : String}
    (htext : Text (loadListed L w.host libraries).2.1 stdout) :
    let o := conclude stdout libraries.length (loadListed L w.host libraries).1
    Reports o w libraries Text ∧ (o.code = 0 ↔ ∀ answer ∈ w.answers (libraries.map (.tryLoad "loader")),
      ∃ names, answer = .loaded (.ok names)) := by
  obtain ⟨results, hanswers, herrors, hlast⟩ := World.run_tryLoads hL libraries
  simp only [conclude_eq, herrors]
  refine ⟨⟨⟨_, hlast, htext⟩, results, hanswers, rfl, rfl⟩, ?_⟩
  have hcode : (if failures results = [] then 0 else 1 : UInt32) = 0 ↔ failures results = [] := by
    split <;> simp_all
  rw [hcode, failures_eq_nil_iff, hanswers]
  simp

theorem presents_of_find? (hL : w.loaders.find? "loader" = some L) (library : Path) (plugin : String) :
    let o := instantiate L w.host library plugin
    Presents o w library plugin ∧ (o.code = 0 ↔ Succeeds w (.instantiate library plugin)) := by
  have hhandle := World.answer_instantiate (World.find?_after_tryLoad hL library) plugin "handle"
  rw [World.host_after_tryLoad hL] at hhandle
  have hanswer : (w.perform (.tryLoad "loader" library)).1 = .loaded (L.tryLoad w.host library).1 := by
    rw [World.perform_tryLoad hL]
  simp only [instantiate_eq]
  cases htry : (L.tryLoad w.host library).1 with
  | error e =>
    rw [htry] at hanswer
    refine ⟨⟨fun e' he' => ?_, fun names hok => ?_, fun names x hok => ?_⟩, ?_⟩
    · rw [hanswer, Answer.loaded.injEq, Except.error.injEq] at he'
      rw [← he']
      rfl
    · rw [hanswer] at hok
      cases hok
    · rw [hanswer] at hok
      cases hok
    · simp only [Succeeds, hanswer, Outcome.failure]
      simp
  | ok names =>
    rw [htry] at hanswer
    cases hheld : ((L.tryLoad w.host library).2.1.instantiate (L.tryLoad w.host library).2.2 plugin).1 with
    | mk held =>
      rw [hheld] at hhandle
      cases held with
      | none =>
        refine ⟨⟨fun e he => ?_, fun _ _ _ => rfl, fun names x _ hx => ?_⟩, ?_⟩
        · rw [hanswer] at he
          cases he
        · rw [hhandle] at hx
          cases hx
        · simp only [Succeeds, hanswer, hhandle, present, Handle.info, Outcome.failure]
          simp [Handle.of]
      | some x =>
        refine ⟨⟨fun e he => ?_, fun _ _ hempty => ?_, fun names y _ hy => ?_⟩, ?_⟩
        · rw [hanswer] at he
          cases he
        · rw [hhandle] at hempty
          cases hempty
        · rw [hhandle] at hy
          cases hy
          exact congrArg Outcome.success (instanceReport_eq x)
        · simp only [Succeeds, hanswer, hhandle, present, Handle.info, Outcome.success]
          simp [Handle.of]

end Session

/-! ## Every command -/

/-- What a command does with the settings, the files and the environment that it finds, apart from its log. -/
structure Performs (files : FileTree) (env : Environment) (r : Request) (o : Outcome) : Prop where
  unreadable : ∀ p e, r.options.config = some p → Config.ofFile files p = .error e →
    o = ⟨1, "", (unreadableConfig p e).report⟩
  invalid : ∀ base e, r.options.source.read files = .ok base → base.withOverrides env = .error e →
    o = ⟨1, "", (invalidEnvironment e).report⟩
  writes : ∀ config, Config.effective files r.options.source env = .ok config →
    Writes o (session files env r config) r.command
  succeeds : o.code = 0 ↔ ∃ config, Config.effective files r.options.source env = .ok config ∧
    Succeeds (session files env r config) r.command
  /-- The libraries that fail to load at the start make no difference to the code and to the two texts. What is
  said of them is said in the log, which is in neither. -/
  preload : files.Coherent → ∀ config env' r', r'.command = r.command →
    Config.effective files r.options.source env = .ok config →
    Config.effective files r'.options.source env' = .ok { config with
      preload := (Loader.withConfig config).loadable (Host.start files) config.preload } →
    execute files env' r' = o

theorem execute_of_config {files : FileTree} {env : Environment} {r : Request} {config : Config}
    (hconfig : Config.effective files r.options.source env = .ok config) :
    Writes (execute files env r) (session files env r config) r.command ∧
      ((execute files env r).code = 0 ↔ Succeeds (session files env r config) r.command) := by
  obtain ⟨hL, hhost⟩ := find?_session hconfig
  have hwork : execute files env r = work ((Loader.withConfig config).loadConfigured (Host.start files)).2.1
      (session files env r config).host r.command := by
    simp only [execute, effectiveConfig_eq_ok_iff.2 hconfig, hhost]
  rw [hwork]
  cases hcommand : r.command with
  | inspect libraries => exact reports_of_find? hL libraries rfl
  | instantiate library plugin => exact presents_of_find? hL library plugin
  | implementing interface libraries =>
    obtain ⟨-, -, -, hlast⟩ := World.run_tryLoads hL libraries
    have hs := World.sound_of_reachable (fun _ => True)
      ((reachable_session files env r config).run (libraries.map (.tryLoad "loader")))
    have hindex := (hs.consistent _ _ hlast).index
    exact reports_of_find? hL libraries (implementing_spec hindex interface)

/-- Every command whose arguments are accepted does what its session does, for all files, settings and
environments. It succeeds exactly when the settings are valid and the work of the session succeeds. As far as
its code and its two texts go, the libraries that fail to load at the start could have been left out. -/
theorem performs {files : FileTree} {env : Environment} {args : List String} {r : Request}
    (hparse : Request.parse args = .ok r) : Performs files env r (run files env args) := by
  have hrun : run files env args = execute files env r := by simp only [run, hparse]
  rw [hrun]
  constructor
  case unreadable =>
    intro p e hp he
    simp only [execute, effectiveConfig_of_unreadable hp he, Outcome.failure, String.empty_append]
  case invalid =>
    intro base e hbase he
    simp only [execute, effectiveConfig_of_read hbase, he, Outcome.failure, String.empty_append]
  case writes => exact fun config hconfig => (execute_of_config hconfig).1
  case succeeds =>
    constructor
    · intro hcode
      cases hconfig : Config.effective files r.options.source env with
      | ok config => exact ⟨config, rfl, (execute_of_config hconfig).2.1 hcode⟩
      | error e =>
        cases heffective : effectiveConfig files env r.options.config with
        | ok config =>
          rw [effectiveConfig_eq_ok_iff.1 heffective] at hconfig
          cases hconfig
        | error f => simp [execute, heffective, Outcome.failure] at hcode
    · rintro ⟨config, hconfig, hsucceeds⟩
      exact (execute_of_config hconfig).2.2 hsucceeds
  case preload =>
    intro hfiles config env' r' hcommand hconfig hconfig'
    exact execute_loadable hfiles hcommand (effectiveConfig_eq_ok_iff.2 hconfig)
      (effectiveConfig_eq_ok_iff.2 hconfig')

/-- A library with two plugins, one of an older version and one that does not fit. -/
def shelf : FileTree :=
  [.write ⟨"/w/a.so"⟩ (.library Image.dummyPlugins),
    .write ⟨"/w/b.so"⟩ (.library Image.oversized),
    .write ⟨"/w/c.so"⟩ (.library
      (Image.legacyPlugin "old" "legacy" "Plugin" Abi.returnVersion))].foldl FileTree.apply
    (.withDirectory ["w"])

def arguments : List String :=
  ["implementing", "dynaplug_testing::interfaces::NameBase", "/w/a.so", "/w/b.so", "/w/gone.so"]

def request : Request :=
  ⟨.none, .implementing "dynaplug_testing::interfaces::NameBase" [⟨"/w/a.so"⟩, ⟨"/w/b.so"⟩, ⟨"/w/gone.so"⟩]⟩

/-- Two libraries are to be loaded at the start, and one of them does not fit. -/
def surroundings : Environment := ⟨[(Variable.preload, .text "/w/b.so:/w/c.so")]⟩

/-- What the command above writes: two of the three listed libraries fail to load. That one of them already
failed at the start is said in the log only. -/
def expected : Outcome where
  code := 1
  stdout := lines ["::dynaplug_dummy_plugins::DummyMultiPlugin", "::dynaplug_dummy_plugins::DummySinglePlugin",
    "::legacy::Plugin"]
  stderr := lines
    ["error: Failed to load plugins from library [/w/b.so]: incompatible plugin API: version 3, " ++
        "expected descriptor size [40], got [48]",
      "error: Library [/w/gone.so] does not exist",
      "Error: 2 of 3 libraries failed to load"]

theorem performs_of_shelf : Request.parse arguments = .ok request ∧
    Performs shelf surroundings request expected ∧
    execute shelf ⟨[(Variable.preload, .text "/w/c.so")]⟩ request = expected := by
  have hparse : Request.parse arguments = .ok request := by rfl
  have hperforms : Performs shelf surroundings request (run shelf surroundings arguments) := performs hparse
  have hrun : run shelf surroundings arguments = expected := by decide +kernel
  rw [hrun] at hperforms
  have hfiles : shelf.Coherent := (FileTree.coherent_withDirectory ["w"]).applyAll _
  have hloadable : (Loader.withConfig ⟨.overwrite, [⟨"/w/b.so"⟩, ⟨"/w/c.so"⟩], true⟩).loadable
      (Host.start shelf) [⟨"/w/b.so"⟩, ⟨"/w/c.so"⟩] = [⟨"/w/c.so"⟩] := by
    decide +kernel
  refine ⟨hparse, hperforms, ?_⟩
  refine hperforms.preload hfiles ⟨.overwrite, [⟨"/w/b.so"⟩, ⟨"/w/c.so"⟩], true⟩ _ request rfl (by rfl) ?_
  rw [hloadable]
  rfl

end PluginHost.CommandLine
