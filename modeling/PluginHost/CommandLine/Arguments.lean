import PluginHost.Path

/-!
# Arguments

An argument list names a command, with options before or after its name. An option may be given once
before the name and once after it; what comes after the name counts. `--` makes every later argument
of a command a plain word.

* `Command`, `Options`, `Request`: what is asked for.
* `Stop`: what ends the reading of the arguments before that.
* `Scan.step`: one argument read.
* `Request.parse`: the whole list read.
-/

namespace PluginHost.CommandLine

set_option autoImplicit false

/-! ## Requests -/

inductive Command where
  | inspect (libraries : List Path)
  | instantiate (library : Path) (plugin : String)
  | implementing (interface : String) (libraries : List Path)
  deriving Repr, DecidableEq

def Command.libraries : Command → List Path
  | .inspect libraries => libraries
  | .instantiate library _ => [library]
  | .implementing _ libraries => libraries

structure Options where
  config : Option Path
  verbose : Bool
  deriving Repr, DecidableEq

def Options.none : Options := ⟨.none, false⟩

/-- The options given before and after the name of a command. -/
def Options.merge (before after : Options) : Options :=
  ⟨after.config.or before.config, before.verbose || after.verbose⟩

structure Request where
  options : Options
  command : Command
  deriving Repr, DecidableEq

/-- What ends the reading of the arguments: one that is wrong, or a question about the program. -/
inductive Stop where
  | usage
  | help
  | version
  deriving Repr, DecidableEq

/-! ## Words -/

inductive Word where
  | plain (text : String)
  | separator
  | long (name : String) (value : Option String)
  | short (letters : List Char)
  deriving Repr, DecidableEq

/-- The text up to the first `=`, and what follows it. -/
def splitEquals : List Char → List Char × Option (List Char)
  | [] => ([], none)
  | c :: rest =>
    if c = '=' then ([], some rest)
    else ((c :: (splitEquals rest).1), (splitEquals rest).2)

/-- The form of an argument; a single dash is a plain word. -/
def Word.of (arg : String) : Word :=
  match arg.toList with
  | ['-', '-'] => .separator
  | '-' :: '-' :: rest =>
    .long (String.ofList (splitEquals rest).1) ((splitEquals rest).2.map String.ofList)
  | '-' :: c :: rest => .short (c :: rest)
  | _ => .plain arg

/-! ## Plain words of a command -/

inductive Place where
  | path
  | text
  deriving Repr, DecidableEq

/-- The plain words of a command: each of those that it must have, and whether paths follow. -/
structure Form where
  required : List Place
  more : Bool
  deriving Repr, DecidableEq

/-- What the plain word number `n` stands for, if there may be so many. -/
def Form.place (form : Form) (n : Nat) : Option Place :=
  match form.required[n]? with
  | some place => some place
  | none => if form.more then some .path else none

/-! ## Reading one argument -/

/-- What was read so far: the options, whether the value of `--config` comes next, whether every
later argument is a plain word, and the plain words. -/
structure Scan where
  options : Options
  awaiting : Bool
  literal : Bool
  words : List String
  deriving Repr, DecidableEq

namespace Scan

def start : Scan := ⟨.none, false, false, []⟩

/-- The value of `--config`, which is given once and not empty. -/
def setConfig (s : Scan) (value : String) : Except Stop Scan :=
  if s.options.config.isSome || value.isEmpty then .error .usage
  else .ok { s with options := { s.options with config := some ⟨value⟩ }, awaiting := false }

def setVerbose (s : Scan) : Except Stop Scan :=
  if s.options.verbose then .error .usage
  else .ok { s with options := { s.options with verbose := true } }

/-- A plain word; there must be a place for it, and no path is empty. -/
def addWord (form : Form) (s : Scan) (text : String) : Except Stop Scan :=
  match form.place s.words.length with
  | none => .error .usage
  | some .path =>
    if text.isEmpty then .error .usage else .ok { s with words := s.words ++ [text] }
  | some .text => .ok { s with words := s.words ++ [text] }

/-- The letters behind a single dash; the value of `c` is the rest of them, or the next argument. -/
def readLetters (isOuter : Bool) (s : Scan) : List Char → Except Stop Scan
  | [] => .ok s
  | 'v' :: rest =>
    match s.setVerbose with
    | .ok s' => readLetters isOuter s' rest
    | .error e => .error e
  | ['c'] => if s.options.config.isSome then .error .usage else .ok { s with awaiting := true }
  | 'c' :: '=' :: value => s.setConfig (String.ofList value)
  | 'c' :: value => s.setConfig (String.ofList value)
  | 'h' :: _ => .error .help
  | 'V' :: _ => if isOuter then .error .version else .error .usage
  | _ => .error .usage

def readLong (isOuter : Bool) (s : Scan) (name : String) (value : Option String) :
    Except Stop Scan :=
  match name, value with
  | "config", some v => s.setConfig v
  | "config", none =>
    if s.options.config.isSome then .error .usage else .ok { s with awaiting := true }
  | "verbose", none => s.setVerbose
  | "help", none => .error .help
  | "version", none => if isOuter then .error .version else .error .usage
  | _, _ => .error .usage

/-- Reads one argument; `isOuter` says that it stands before the name of the command. -/
def step (isOuter : Bool) (form : Form) (s : Scan) (arg : String) : Except Stop Scan :=
  if s.literal then s.addWord form arg
  else
    match Word.of arg, s.awaiting with
    | .plain text, true => s.setConfig text
    | _, true => .error .usage
    | .plain text, false => s.addWord form text
    | .separator, false => .ok { s with literal := true }
    | .long name value, false => s.readLong isOuter name value
    | .short letters, false => s.readLetters isOuter letters

end Scan

/-! ## Reading the list -/

/-- The commands by their names, with the form of their plain words. -/
def form? (name : String) : Option Form :=
  match name with
  | "inspect" => some ⟨[], true⟩
  | "instantiate" => some ⟨[.path, .text], false⟩
  | "implementing" => some ⟨[.text], true⟩
  | _ => none

def command? (name : String) (words : List String) : Option Command :=
  match name, words with
  | "inspect", libraries => some (.inspect (libraries.map Path.mk))
  | "instantiate", [library, plugin] => some (.instantiate ⟨library⟩ plugin)
  | "implementing", interface :: libraries =>
    some (.implementing interface (libraries.map Path.mk))
  | _, _ => none

def parseCommand (before : Options) (name : String) (form : Form) (args : List String) :
    Except Stop Request :=
  match args.foldlM (Scan.step false form) Scan.start with
  | .error e => .error e
  | .ok s =>
    if s.awaiting then .error .usage
    else
      match command? name s.words with
      | some command => .ok ⟨before.merge s.options, command⟩
      | none => .error .usage

def parseHelp (args : List String) : Stop :=
  match args with
  | [] => .help
  | [name] => if (form? name).isSome || name == "help" then .help else .usage
  | _ => .usage

def parseFrom (s : Scan) : List String → Except Stop Request
  | [] => .error .usage
  | arg :: rest =>
    match form? arg, s.awaiting || s.literal with
    | some form, false => parseCommand s.options arg form rest
    | _, elsewhere =>
      if arg == "help" && !elsewhere then .error (parseHelp rest)
      else
        match s.step true ⟨[], false⟩ arg with
        | .error e => .error e
        | .ok s' => parseFrom s' rest

def Request.parse (args : List String) : Except Stop Request := parseFrom .start args

end PluginHost.CommandLine
