import PluginHost.FileTree

/-!
# Changes of files

* `FileChange`: what can happen to the files.
* `FileTree.apply`: the files after a change.
-/

namespace PluginHost

set_option autoImplicit false

inductive FileChange where
  | write (p : Path) (content : Content)
  | makeDirectory (p : Path)
  | makeLink (p goal : Path)
  | makeAlias (p old : Path)
  | copy (p old : Path)
  | remove (p : Path)

def FileTree.apply (t : FileTree) : FileChange → FileTree
  | .write p content => t.write p content
  | .makeDirectory p => t.makeDirectory p
  | .makeLink p goal => t.makeLink p goal
  | .makeAlias p old => t.makeAlias p old
  | .copy p old => t.copy p old
  | .remove p => t.remove p

end PluginHost
