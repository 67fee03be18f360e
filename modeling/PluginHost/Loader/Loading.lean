import PluginHost.Loader
import PluginHost.Negotiation
import PluginHost.Image

/-!
# Loading libraries

A library is opened, its exports are read, and its plugins are registered. When something is wrong on the
way, the library is closed again and the loader stays as it was.

* `Loader.tryLoad`: one library, with the reason when it cannot be used.
* `Loader.load`, `Loader.loadAll`, `Loader.loadConfigured`: libraries, with the reasons only said.
-/

namespace PluginHost.Loader

set_option autoImplicit false

/-! ## Loading -/

def probe (o : Origin) (h : Host) : Probe → Host
  | .describe index => h.call o (.describe index)
  | .describeLegacy shape => h.call o (.describeLegacy shape)
  | .notice n => h.note n

/-- Warns of a library of an older version, if the settings say so. -/
def warnOutdated (L : Loader) (h : Host) (p : Path) (n : Negotiated) : Host :=
  if L.config.warnOutdatedAbi && n.isOutdated then h.note (.outdated p n.version) else h

/-- Reads the exports of a library that was opened as `p`, and registers its plugins. -/
def receive (L : Loader) (h : Host) (p : Path) (o : Origin) (exports : Exports) :
    Except LoadError (List String) × Loader × Host :=
  let declared := h.note (.declares p exports.version exports.infoSize)
  let reading := negotiate exports
  let read := reading.1.foldl (probe o) declared
  match reading.2 with
  | .error e => (.error (.abi p e), L, read.closeMapping o.mapping)
  | .ok negotiated =>
    let warned := L.warnOutdated read p negotiated
    let registered := L.register warned (libraryKey h.files p) o negotiated.infos
    (.ok registered.1, registered.2.1, registered.2.2.note (.loaded registered.1.length p))

/-- Loads a library: the names of its registered plugins in order, or why it cannot be used. -/
def tryLoad (L : Loader) (h : Host) (p : Path) : Except LoadError (List String) × Loader × Host :=
  if h.files.exists? p then
    let opening := h.note (.opening p)
    match opening.openLibrary p with
    | none => (.error (.cannotOpen p), L, opening)
    | some ((mapping, image), opened) =>
      L.receive opened p ⟨mapping, image.id, image.reports⟩ image.exports
  else (.error (.notFound p), L, h)

/-- Loads a library; when it cannot be used this is said, and there are no names. -/
def load (L : Loader) (h : Host) (p : Path) : List String × Loader × Host :=
  match L.tryLoad h p with
  | (.ok names, L', h') => (names, L', h')
  | (.error e, L', h') => ([], L', h'.note (.loadFailed e))

/-- Loads libraries one after the other and answers all names, in order. -/
def loadAll (L : Loader) (h : Host) (paths : List Path) : List String × Loader × Host :=
  let last := paths.foldl
    (fun state p =>
      let step := state.2.1.load state.2.2 p
      (state.1 ++ step.1, step.2))
    (([] : List String), L, h)
  (Ordered.ofList last.1, last.2)

theorem loadAll_induction {motive : Loader → Host → Prop} {L : Loader} {h : Host}
    (paths : List Path) (start : motive L h)
    (step : ∀ L h p, motive L h → motive (L.load h p).2.1 (L.load h p).2.2) :
    motive (L.loadAll h paths).2.1 (L.loadAll h paths).2.2 := by
  unfold loadAll
  generalize ([] : List String) = names
  induction paths generalizing L h names with
  | nil => exact start
  | cons p paths ih => exact ih (step L h p start) _

def loadConfigured (L : Loader) (h : Host) : List String × Loader × Host :=
  L.loadAll h L.config.preload

end PluginHost.Loader
