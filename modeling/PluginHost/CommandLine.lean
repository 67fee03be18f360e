import PluginHost.CommandLine.Arguments
import PluginHost.CommandLine.Failure
import PluginHost.Config.Source
import PluginHost.Loader.Loading
import PluginHost.Loader.Query

/-!
# The command line

A command runs in a process of its own: it makes a loader from the settings and the environment, loads
the libraries that the settings list and then does its work.

What a command writes are its answer and its errors. The log, which goes to the same stream as the errors, is
not part of it, whether or not more of it is asked for. In an error the words that are not of this program's
choosing are cut short: `LoadError.systemReason` stands for those of the system, and
`ConfigError.documentReason` for those of the reader of documents.

* `Outcome`: the exit code and what was written.
* `effectiveConfig`: the settings of a command.
* `inspect`, `instantiate`, `implementing`: the three commands.
* `run`: an argument list from beginning to end.
-/

namespace PluginHost.CommandLine

set_option autoImplicit false

/-! ## Outcomes -/

/-- How a command ended: its exit code, and what it wrote to the two streams, without the log and with the
words of others cut short. -/
structure Outcome where
  code : UInt32
  stdout : String
  stderr : String
  deriving Repr, DecidableEq

namespace Outcome

def success (stdout : String) : Outcome := ⟨0, stdout, ""⟩

/-- A command that failed, after what it had written. -/
def failure (stdout stderr : String) (f : Failure) : Outcome := ⟨1, stdout, stderr ++ f.report⟩

def version : Outcome := success "dynaplug 0.3.0\n"

def usageText : String :=
  "Usage: dynaplug [-c CONFIG] [-v] inspect [LIBRARY]...\n" ++
    "       dynaplug [-c CONFIG] [-v] instantiate LIBRARY PLUGIN\n" ++
    "       dynaplug [-c CONFIG] [-v] implementing INTERFACE [LIBRARY]...\n"

def ofStop : Stop → Outcome
  | .usage => ⟨2, "", usageText⟩
  | .help => success usageText
  | .version => version

end Outcome

/-! ## Settings -/

/-- The failure of a command whose settings cannot be read; the environment has no part in it. -/
def unreadableConfig (p : Path) (e : ConfigError) : Failure :=
  ⟨"cannot read config " ++ p.text, Failure.causesOfConfig e⟩

def invalidEnvironment (e : ConfigError) : Failure :=
  ⟨"invalid " ++ Variable.duplicatePolicy ++ " / " ++ Variable.preload ++ " / " ++
      Variable.warnOutdatedAbi ++ " setting",
    Failure.causesOfConfig e⟩

def baseConfig (files : FileTree) : Option Path → Except Failure Config
  | none => .ok Config.standard
  | some p =>
    match Config.ofFile files p with
    | .ok c => .ok c
    | .error e => .error (unreadableConfig p e)

/-- The settings of a command: the file, and the environment on top. -/
def effectiveConfig (files : FileTree) (env : Environment) (file : Option Path) :
    Except Failure Config :=
  match baseConfig files file with
  | .error f => .error f
  | .ok base =>
    match base.withOverrides env with
    | .ok c => .ok c
    | .error e => .error (invalidEnvironment e)

/-! ## Loading -/

def errorLine (e : LoadError) : String := "error: " ++ e.message ++ "\n"

/-- Loads libraries one after the other and answers the errors, in order. -/
def loadListed (L : Loader) (h : Host) : List Path → List LoadError × Loader × Host
  | [] => ([], L, h)
  | p :: rest =>
    match L.tryLoad h p with
    | (.ok _, L', h') => loadListed L' h' rest
    | (.error e, L', h') =>
      let others := loadListed L' h' rest
      (e :: others.1, others.2)

/-- The end of a command that loaded libraries and wrote its answer: it failed if one of them did. -/
def conclude (stdout : String) (listed : Nat) (errors : List LoadError) : Outcome :=
  if errors.isEmpty then .success stdout
  else
    .failure stdout (String.join (errors.map errorLine))
      ⟨toString errors.length ++ " of " ++ toString listed ++ " libraries failed to load", []⟩

/-! ## Commands -/

def inspect (L : Loader) (h : Host) (libraries : List Path) : Outcome :=
  let loaded := loadListed L h libraries
  conclude loaded.2.1.dump libraries.length loaded.1

def implementing (L : Loader) (h : Host) (interface : String) (libraries : List Path) : Outcome :=
  let loaded := loadListed L h libraries
  conclude (String.join ((loaded.2.1.implementing interface).map fun p => p ++ "\n"))
    libraries.length loaded.1

def interfaceLine (handle : Handle) (interface : String) : String :=
  "\t" ++ interface ++ ": " ++
    (if (handle.find? interface).isSome then "resolved" else "unavailable") ++ "\n"

def instanceReport (handle : Handle) (info : PluginInfo) : String :=
  "Instantiated " ++ info.display ++ "\n" ++
    String.join (info.interfaceNames.map (interfaceLine handle))

/-- Loads a library, makes an instance of a plugin and writes which of its interfaces are there. -/
def instantiate (L : Loader) (h : Host) (library : Path) (plugin : String) : Outcome :=
  match L.tryLoad h library with
  | (.error e, _, _) =>
    .failure "" "" ⟨"cannot use library " ++ library.text, Failure.causesOfLoad e⟩
  | (.ok _, L', h') =>
    let handle := (L'.instantiate h' plugin).1
    match handle.info with
    | some info => .success (instanceReport handle info)
    | none =>
      .failure "" "" ⟨"plugin " ++ plugin ++ " is not provided by the loaded libraries", []⟩

def work (L : Loader) (h : Host) : Command → Outcome
  | .inspect libraries => inspect L h libraries
  | .instantiate library plugin => instantiate L h library plugin
  | .implementing interface libraries => implementing L h interface libraries

def execute (files : FileTree) (env : Environment) (r : Request) : Outcome :=
  match effectiveConfig files env r.options.config with
  | .error f => .failure "" "" f
  | .ok config =>
    let loaded := (Loader.withConfig config).loadConfigured (Host.start files)
    work loaded.2.1 loaded.2.2 r.command

def run (files : FileTree) (env : Environment) (args : List String) : Outcome :=
  match Request.parse args with
  | .ok r => execute files env r
  | .error stop => .ofStop stop

end PluginHost.CommandLine
