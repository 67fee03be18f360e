import PluginHost.CommandLine

/-!
# The program

Reads the arguments, the three variables and the files that these name, runs the command line on them
and writes what it answers. A file is taken for a library when it has the name of one of those that
come with the program; every other file is plain octets.
-/

set_option autoImplicit false

open PluginHost PluginHost.CommandLine

/-- The files with the one at a path, if it can be read. -/
def addFile (files : FileTree) (p : Path) : IO FileTree := do
  match p.segments.getLast?.bind Image.ofFileName? with
  | some image => return files.write p (.library image)
  | none =>
    try
      let bytes ← IO.FS.readBinFile p.text
      return files.write p (.octets bytes.toList)
    catch _ => return files

def readEnvironment : IO Environment := do
  let names := [Variable.duplicatePolicy, Variable.preload, Variable.warnOutdatedAbi]
  let settings ← names.filterMapM fun name => do
    return (← IO.getEnv name).map fun value => (name, Setting.text value)
  return ⟨settings⟩

/-- The files that a list of arguments and the settings name. -/
def readFiles (env : Environment) (args : List String) : IO FileTree := do
  let here ← IO.currentDir
  let empty := FileTree.withDirectory (Path.meaningful (Path.segments ⟨here.toString⟩))
  match Request.parse args with
  | .error _ => return empty
  | .ok r =>
    let settings ← r.options.config.toList.foldlM addFile empty
    let preload :=
      match effectiveConfig settings env r.options.config with
      | .ok c => c.preload
      | .error _ => []
    (preload ++ r.command.libraries).foldlM addFile settings

def main (args : List String) : IO UInt32 := do
  let env ← readEnvironment
  let files ← readFiles env args
  let outcome := CommandLine.run files env args
  IO.print outcome.stdout
  IO.eprint outcome.stderr
  return outcome.code
