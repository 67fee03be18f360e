import PluginHost.Config
import PluginHost.FileTree
import PluginHost.Text.Quoted
import PluginHost.Toml.Document

/-!
# Settings in a document

The settings are the keys of a TOML document. The whole document is read first; then the keys are
taken in order and the first wrong one is the error.

* `Config.ofDocument`: the settings of a text. `Config.ofFile`: the settings of a file.
-/

namespace PluginHost

set_option autoImplicit false

open PluginHost.Text PluginHost.Toml

/-! ## Nodes in error messages -/

def Toml.Node.describe : Node → String
  | .text s => "string " ++ Quoted.quote s
  | .integer n => "integer `" ++ toString n ++ "`"
  | .float x => "floating point `" ++ x.positional ++ "`"
  | .boolean b => "boolean `" ++ toString b ++ "`"
  | .moment => "map"
  | .array _ => "sequence"
  | .inline _ _ => "map"
  | .table _ _ => "map"
  | .tables _ => "sequence"

/-! ## The three settings -/

def DuplicatePolicy.ofName (name : String) : Except DocumentError DuplicatePolicy :=
  if name = "overwrite" then .ok .overwrite
  else if name = "reject" then .ok .reject
  else .error (.unknownVariant name)

def Toml.Node.isHollow : Node → Bool
  | .array items => items.isEmpty
  | .inline _ members => members.isEmpty
  | .table _ members => members.isEmpty
  | .tables elements => elements.isEmpty
  | _ => false

/-- A policy as the only key of a table, with nothing below it. -/
def DuplicatePolicy.ofMembers : Members → Except DocumentError DuplicatePolicy
  | [(name, node)] =>
    match ofName name with
    | .error e => .error e
    | .ok policy => if node.isHollow then .ok policy else .error .wrongForm
  | _ => .error .wrongForm

/-- The policy that a node is: its name, or a table with its name as the only key. -/
def DuplicatePolicy.ofNode : Node → Except DocumentError DuplicatePolicy
  | .text s => ofName s
  | .inline _ members => ofMembers members
  | .table _ members => ofMembers members
  | _ => .error .wrongForm

def flagOfNode : Node → Except DocumentError Bool
  | .boolean b => .ok b
  | node => .error (.invalidType node.describe "a boolean")

def pathOfNode : Node → Except DocumentError Path
  | .text s => .ok ⟨s⟩
  | node => .error (.invalidType node.describe "path string")

/-- The list of paths that a node is; the first wrong item is the error. -/
def pathsOfNode : Node → Except DocumentError (List Path)
  | .array items => items.mapM pathOfNode
  | .tables elements => elements.mapM fun e => pathOfNode (.table e.1 e.2)
  | node => .error (.invalidType node.describe "a sequence")

/-! ## Settings -/

namespace Config

/-- The settings with one key of a document on top. -/
def setKey (c : Config) (key : String) (node : Node) : Except DocumentError Config :=
  if key = "duplicate_policy" then
    (DuplicatePolicy.ofNode node).map fun policy => { c with duplicatePolicy := policy }
  else if key = "preload" then
    (pathsOfNode node).map fun paths => { c with preload := paths }
  else if key = "warn_outdated_abi" then
    (flagOfNode node).map fun flag => { c with warnOutdatedAbi := flag }
  else .error (.unknownField key)

/-- The settings of a text; what it does not say is standard. -/
def ofDocument (source : String) : Except ConfigError Config :=
  match parse source with
  | none => .error (.document .malformed)
  | some members =>
    match members.foldlM (fun c e => setKey c e.1 e.2) standard with
    | .ok c => .ok c
    | .error e => .error (.document e)

def ofFile (t : FileTree) (p : Path) : Except ConfigError Config :=
  match t.readText p with
  | .ok source => ofDocument source
  | .error e => .error (.unreadable p e)

end Config

end PluginHost
