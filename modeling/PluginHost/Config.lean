import PluginHost.Error
import PluginHost.Text.Blank
import PluginHost.Text.Utf8

/-!
# Configuration

A loader is configured by a policy for plugin names that two libraries provide, a list of libraries
to load at the start, and whether libraries of older versions are warned about. Three environment
variables override these settings.

* `DuplicatePolicy`, `Config`: the settings. `ConfigError`: why they cannot be read.
* `DuplicatePolicy.parse`, `parseFlag`, `splitPaths`: the texts of the variables.
* `Environment`, `Config.withOverrides`: the settings with the variables on top.
-/

namespace PluginHost

set_option autoImplicit false

open PluginHost.Text

/-! ## Settings -/

/-- What happens to a plugin whose name another library already provides. -/
inductive DuplicatePolicy where
  | overwrite
  | reject
  deriving Repr, DecidableEq

structure Config where
  duplicatePolicy : DuplicatePolicy
  preload : List Path
  warnOutdatedAbi : Bool
  deriving Repr, DecidableEq

def Config.standard : Config := ⟨.overwrite, [], true⟩

/-! ## Variables -/

namespace Variable

def duplicatePolicy : String := "DYNAPLUG_DUPLICATE_POLICY"

def preload : String := "DYNAPLUG_PRELOAD"

def warnOutdatedAbi : String := "DYNAPLUG_WARN_OUTDATED_ABI"

end Variable

/-- The value of a variable: a text, or octets that are none. -/
inductive Setting where
  | text (s : String)
  | undecodable (bytes : List UInt8)
  deriving Repr, DecidableEq

def Setting.ofBytes (bytes : List UInt8) : Setting :=
  match Utf8.decode? bytes with
  | some s => .text s
  | none => .undecodable bytes

structure Environment where
  settings : List (String × Setting)
  deriving Repr, DecidableEq

/-- The text of a variable; one that is no text counts as not set. -/
def Environment.text? (env : Environment) (name : String) : Option String :=
  match env.settings.find? fun e => e.1 == name with
  | some (_, .text s) => some s
  | _ => none

/-! ## Errors -/

inductive DocumentError where
  /-- The text is no document, or a key comes twice. -/
  | malformed
  /-- A setting has a form of its own and was given another. -/
  | wrongForm
  | unknownField (name : String)
  | unknownVariant (name : String)
  | invalidType (found expected : String)
  deriving Repr, DecidableEq

def DocumentError.message : DocumentError → Option String
  | .malformed => none
  | .wrongForm => none
  | .unknownField name =>
    some ("unknown field `" ++ name ++
      "`, expected one of `duplicate_policy`, `preload`, `warn_outdated_abi`")
  | .unknownVariant name =>
    some ("unknown variant `" ++ name ++ "`, expected `overwrite` or `reject`")
  | .invalidType found expected => some ("invalid type: " ++ found ++ ", expected " ++ expected)

inductive ConfigError where
  | unreadable (path : Path) (cause : FileError)
  | document (cause : DocumentError)
  | invalidValue (key value : String)
  deriving Repr, DecidableEq

namespace ConfigError

/-- What stands for the wording of an error in a document, which the reader of documents chooses. -/
def documentReason : String := "<toml>"

def message : ConfigError → String
  | .unreadable p e => "failed to read config file [" ++ p.text ++ "]: " ++ e.message
  | .document _ => "invalid config: " ++ documentReason
  | .invalidValue key value => "invalid value for " ++ key ++ ": [" ++ value ++ "]"

end ConfigError

/-! ## The texts of variables -/

/-- A word with the blanks around it dropped and its ASCII capitals lowered. -/
def plainWord (s : String) : List Char := lowerAscii (trim s.toList)

def DuplicatePolicy.parse (s : String) : Except ConfigError DuplicatePolicy :=
  if plainWord s = "overwrite".toList then .ok .overwrite
  else if plainWord s = "reject".toList then .ok .reject
  else .error (.invalidValue Variable.duplicatePolicy s)

def yesWords : List String := ["1", "true", "yes", "on"]

def noWords : List String := ["0", "false", "no", "off"]

/-- The answer that the text of the variable `key` gives. -/
def parseFlag (key s : String) : Except ConfigError Bool :=
  if plainWord s ∈ yesWords.map String.toList then .ok true
  else if plainWord s ∈ noWords.map String.toList then .ok false
  else .error (.invalidValue key s)

def splitColons : List Char → List (List Char)
  | [] => [[]]
  | c :: rest =>
    if c = ':' then [] :: splitColons rest
    else
      match splitColons rest with
      | [] => [[c]]
      | piece :: more => (c :: piece) :: more

/-- The paths between colons, empty ones left out. -/
def splitPaths (s : String) : List Path :=
  ((splitColons s.toList).filter fun piece => !piece.isEmpty).map fun piece =>
    ⟨String.ofList piece⟩

/-! ## Overrides -/

namespace Config

/-- The settings with the variables that are set on top. -/
def withOverrides (c : Config) (env : Environment) : Except ConfigError Config := do
  let policy ←
    match env.text? Variable.duplicatePolicy with
    | some s => DuplicatePolicy.parse s
    | none => .ok c.duplicatePolicy
  let preload :=
    match env.text? Variable.preload with
    | some s => splitPaths s
    | none => c.preload
  let warn ←
    match env.text? Variable.warnOutdatedAbi with
    | some s => parseFlag Variable.warnOutdatedAbi s
    | none => .ok c.warnOutdatedAbi
  return ⟨policy, preload, warn⟩

end Config

end PluginHost
