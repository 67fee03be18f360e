import PluginHost.World

/-!
# What a program does with loaders

A program makes loaders, lets them load and forget libraries, and drops them.

* `World.newLoader`, `World.dropLoader`: loaders come and go.
* `World.load`, `World.tryLoad`, `World.loadConfigured`, `World.forget`, `World.forgetOf`: libraries.
* `World.instantiate`: a handle for a new instance.
-/

namespace PluginHost.World

set_option autoImplicit false

/-! ## Loaders -/

def newLoader (w : World) (loader : String) (source : Config.Source) (env : Environment) :
    Except ConfigError Config × World :=
  match Config.effective w.host.files source env with
  | .error e => (.error e, w)
  | .ok config =>
    (.ok config,
      { w with
        host :=
          match w.loaders.find? loader with
          | some old => old.dispose w.host
          | none => w.host
        loaders := w.loaders.put loader (.withConfig config) })

def dropLoader (w : World) (loader : String) : Bool × World :=
  match w.loaders.find? loader with
  | none => (false, w)
  | some L => (true, { w with host := L.dispose w.host, loaders := w.loaders.erase loader })

def load (w : World) (loader : String) (p : Path) : Option (List String) × World :=
  w.onLoader loader fun L h => L.load h p

def tryLoad (w : World) (loader : String) (p : Path) :
    Option (Except LoadError (List String)) × World :=
  w.onLoader loader fun L h => L.tryLoad h p

def loadConfigured (w : World) (loader : String) : Option (List String) × World :=
  w.onLoader loader Loader.loadConfigured

def forget (w : World) (loader : String) (p : Path) : Option Bool × World :=
  w.onLoader loader fun L h => L.forget h p

def forgetOf (w : World) (loader plugin : String) : Option Bool × World :=
  w.onLoader loader fun L h => L.forgetOf h plugin

def instantiate (w : World) (loader plugin name : String) (candidates : Option Candidates) :
    Option Handle × World :=
  match w.loaders.find? loader with
  | none => (none, w)
  | some L =>
    let made := L.instantiate w.host plugin
    let holder := Holder.make made.1 candidates made.2
    (some made.1, { w with host := holder.2 }.keep name holder.1)

end PluginHost.World
