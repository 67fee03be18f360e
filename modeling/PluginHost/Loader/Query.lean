import PluginHost.Loader

/-!
# Questions to a loader

What a loader knows, listed in the order of names and paths, and the written form of its index.

* `Loader.interfacesImplemented`, `Loader.implementing`, `Loader.plugins`: names.
* `Loader.pluginInfo`, `Loader.listed`, `Loader.providers`: plugins and libraries.
* `Loader.dump`: the written form.
-/

namespace PluginHost.Loader

set_option autoImplicit false

/-! ## Names -/

def infos (L : Loader) : List PluginInfo := L.index.values.map IndexEntry.info

def interfacesImplemented (L : Loader) : List String :=
  Ordered.ofList (L.infos.flatMap PluginInfo.interfaceNames)

/-- The known plugins that implement an interface, in any spelling, in order. -/
def implementing (L : Loader) (interface : String) : List String :=
  Ordered.ofList ((L.infos.filter fun info => info.implements interface).map PluginInfo.name)

def plugins (L : Loader) : List String := Ordered.ofList (L.infos.map PluginInfo.name)

/-! ## Plugins and libraries -/

def pluginInfo (L : Loader) (plugin : String) : Option PluginInfo :=
  (L.index.find? (Name.normalize plugin)).map IndexEntry.info

def listed (L : Loader) : List Library :=
  L.libraries.values.mergeSort fun a b => decide (a.path.text ≤ b.path.text)

/-- For every listed library whether it was registered with a plugin. -/
def providers (L : Loader) (plugin : String) : List (Path × Bool) :=
  L.listed.map fun l => (l.path, l.provides plugin)

/-! ## Written form -/

def line (depth : Nat) (text : String) : String :=
  String.ofList (List.replicate depth '\t') ++ text ++ "\n"

def orderedInfos (L : Loader) : List PluginInfo :=
  (Ordered.putAll (L.infos.map fun info => (info.name, info))).map Prod.snd

def pluginLines (info : PluginInfo) : List String :=
  line 2 (info.display ++ ":") :: info.interfaceNames.map (line 3)

/-- The known interfaces and plugins, one on a line. -/
def dump (L : Loader) : String :=
  String.join
    ([line 0 "PluginLoader State",
        line 1 ("Known Interfaces: " ++ toString L.interfacesImplemented.length)] ++
      L.interfacesImplemented.map (line 2) ++
      [line 1 ("Known Plugins: " ++ toString L.orderedInfos.length)] ++
      L.orderedInfos.flatMap pluginLines)

end PluginHost.Loader
