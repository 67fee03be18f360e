import PluginHost.World.Holding
import PluginHost.World.Loading
import PluginHost.World.Sharing

/-!
# Actions

What a program can do in a world, as data, and what it is answered. The worlds that a program can get
into are those that actions lead to from a world in which nothing has happened.

* `Action`, `Answer`: the data.
* `World.perform`: an action done.
* `World.Reachable`: the worlds that actions lead to.
-/

namespace PluginHost

set_option autoImplicit false

/-! ## The data -/

inductive Action where
  | newLoader (loader : String) (source : Config.Source) (env : Environment)
  | dropLoader (loader : String)
  | load (loader : String) (p : Path)
  | tryLoad (loader : String) (p : Path)
  | loadConfigured (loader : String)
  | forget (loader : String) (p : Path)
  | forgetOf (loader plugin : String)
  | instantiate (loader plugin name : String) (candidates : Option Candidates)
  | newHandle (name : String) (candidates : Option Candidates)
  | cloneHandle (name goal : String)
  | takeHandle (name goal : String)
  | specialize (name goal : String) (candidates : Candidates)
  | generalize (name goal : String)
  | resetHandle (name : String)
  | dropHandle (name : String)
  | query (name : String) (i : Interface) (arg : Argument)
  | require (name : String) (i : Interface) (arg : Argument)
  | queryNamed (name interface : String) (arg : Argument)
  | find (name interface : String)
  | findTwice (name : String) (i : Interface)
  | share (name : String) (i : Interface) (goal : String)
  | callShared (name : String) (arg : Argument)
  | cloneShared (name goal : String)
  | handleOfShared (name goal : String)
  | dropShared (name : String)
  | changeFiles (change : FileChange)

/-- What a program is answered; `absent` when what it named was not there. -/
inductive Answer where
  | absent
  | done
  | flag (b : Bool)
  | names (plugins : List String)
  | config (r : Except ConfigError Config)
  | loaded (r : Except LoadError (List String))
  | handle (handle : Handle)
  | reply (r : Option Reply)
  | required (r : Except MissingInterface Reply)
  | place (p : Option Pointer)
  | places (own inner : Option Pointer)
  | shared (s : Option Shared)

/-- The answer when what was named may be absent. -/
def Answer.ofOption {α : Type} (f : α → Answer) (r : Option α × World) : Answer × World :=
  (match r.1 with
    | some a => f a
    | none => .absent,
    r.2)

def Answer.of {α : Type} (f : α → Answer) (r : α × World) : Answer × World := (f r.1, r.2)

/-! ## Doing -/

namespace World

open Answer in
def perform (w : World) : Action → Answer × World
  | .newLoader loader source env => Answer.of config (w.newLoader loader source env)
  | .dropLoader loader => Answer.of flag (w.dropLoader loader)
  | .load loader p => ofOption names (w.load loader p)
  | .tryLoad loader p => ofOption loaded (w.tryLoad loader p)
  | .loadConfigured loader => ofOption names (w.loadConfigured loader)
  | .forget loader p => ofOption flag (w.forget loader p)
  | .forgetOf loader plugin => ofOption flag (w.forgetOf loader plugin)
  | .instantiate loader plugin name candidates =>
    ofOption handle (w.instantiate loader plugin name candidates)
  | .newHandle name candidates => Answer.of handle (w.newHandle name candidates)
  | .cloneHandle name goal => ofOption handle (w.cloneHandle name goal)
  | .takeHandle name goal => ofOption handle (w.takeHandle name goal)
  | .specialize name goal candidates => ofOption handle (w.specialize name goal candidates)
  | .generalize name goal => ofOption handle (w.generalize name goal)
  | .resetHandle name => ofOption flag (w.resetHandle name)
  | .dropHandle name => Answer.of flag (w.dropHandle name)
  | .query name i arg => ofOption reply (w.query name i arg)
  | .require name i arg => ofOption required (w.require name i arg)
  | .queryNamed name interface arg => ofOption reply (w.queryNamed name interface arg)
  | .find name interface => ofOption place (w.find name interface)
  | .findTwice name i => ofOption (fun r => places r.1 r.2) (w.findTwice name i)
  | .share name i goal => ofOption shared (w.share name i goal)
  | .callShared name arg => ofOption (fun r => reply (some r)) (w.callShared name arg)
  | .cloneShared name goal => ofOption (fun s => shared (some s)) (w.cloneShared name goal)
  | .handleOfShared name goal => ofOption handle (w.handleOfShared name goal)
  | .dropShared name => Answer.of flag (w.dropShared name)
  | .changeFiles change => (done, w.changeFiles change)

def after (w : World) (a : Action) : World := (w.perform a).2

def run (w : World) (actions : List Action) : World := actions.foldl after w

/-- Actions lead to the world from one in which nothing has happened. -/
inductive Reachable : World → Prop where
  | start (files : FileTree) : Reachable (World.start files)
  | step {w : World} (a : Action) : Reachable w → Reachable (w.after a)

theorem Reachable.run {w : World} (hw : Reachable w) (actions : List Action) :
    Reachable (w.run actions) := by
  induction actions generalizing w with
  | nil => exact hw
  | cons a rest ih => exact ih (hw.step a)

end World

end PluginHost
