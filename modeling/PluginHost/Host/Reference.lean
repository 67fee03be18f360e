import PluginHost.Host

/-!
# References

Loaders and instances refer to libraries; handles and shared capabilities hold instances. An instance
that nothing holds any more is destroyed by the deleter of its library and then gives its library
back; a library that nothing refers to any more is unloaded.

* `Host.newLibrary`, `Host.retainLibrary`, `Host.releaseLibrary`: references to libraries.
* `Host.instantiate`, `Host.retain`, `Host.release`: holders of instances.
* `Host.live`, `Host.uses`: the counters.
-/

namespace PluginHost.Host

set_option autoImplicit false

/-! ## Libraries -/

/-- Registers a library under a path; the answer is its only reference. -/
def newLibrary (h : Host) (path : Path) (plugins : List String) (origin : Origin) :
    Library × Host :=
  let library : Library := ⟨h.fresh, path, plugins, origin⟩
  (library,
    { h with
      records := h.records.put library.id ⟨library, 1, 0⟩
      fresh := h.fresh + 1 })

def retainLibrary (h : Host) (l : Library) : Host :=
  match h.records.find? l.id with
  | none => h
  | some r => { h with records := h.records.put l.id { r with references := r.references + 1 } }

/-- Gives back a reference to a library; with the last one the library goes, and its hold on the
mapping with it. -/
def releaseLibrary (h : Host) (l : Library) : Host :=
  match h.records.find? l.id with
  | none => h
  | some r =>
    if r.references ≤ 1 then
      ({ h with records := h.records.erase l.id }.note (.unloading l.path)).closeMapping
        l.origin.mapping
    else { h with records := h.records.put l.id { r with references := r.references - 1 } }

def live (h : Host) (l : Library) : Nat :=
  match h.records.find? l.id with
  | none => 0
  | some r => r.live

def countLive (h : Host) (l : Library) (change : Nat → Nat) : Host :=
  match h.records.find? l.id with
  | none => h
  | some r => { h with records := h.records.put l.id { r with live := change r.live } }

/-! ## Instances -/

/-- Calls the factory of a plugin. An instance it makes has one holder and refers to its library;
when it makes none, nothing but the journal changes. -/
def instantiate (h : Host) (info : PluginInfo) (library : Library) : Option Instance × Host :=
  match info.factory.product with
  | .nothing =>
    (none, (h.call library.origin (.create info.factory.tag none)).note (.factoryFailed info.name))
  | _ =>
    let x : Instance := ⟨h.fresh, info, library⟩
    let made := { h with
      instances := h.instances.put x.id ⟨x, 1, info.factory.initial⟩
      fresh := h.fresh + 1 }
    let called := made.call library.origin (.create x.tag (some x.id))
    let counted := (called.retainLibrary library).countLive library (· + 1)
    (some x, counted.note (.created info.name))

theorem instantiate_of_nothing (h : Host) {info : PluginInfo} (library : Library)
    (hp : info.factory.product = .nothing) : h.instantiate info library =
      (none, (h.call library.origin (.create info.factory.tag none)).note (.factoryFailed info.name)) := by
  simp only [instantiate, hp]

theorem instantiate_fst (h : Host) {info : PluginInfo} (library : Library)
    (hp : info.factory.product ≠ .nothing) :
    (h.instantiate info library).1 = some ⟨h.fresh, info, library⟩ := by
  unfold instantiate
  split
  · next hnothing => exact absurd hnothing hp
  · rfl

/-- What a factory makes is counted for its library and for no other. -/
theorem live_instantiate (h : Host) {info : PluginInfo} {library : Library}
    (hp : info.factory.product ≠ .nothing) {r : Record}
    (hr : h.records.find? library.id = some r) (l : Library) :
    (h.instantiate info library).2.live l = h.live l + if l.id = library.id then 1 else 0 := by
  unfold instantiate
  split
  · next hnothing => exact absurd hnothing hp
  · simp only [note, call, log, retainLibrary, countLive, hr, Table.find?_put_self, live]
    by_cases hid : l.id = library.id
    · simp [hid, hr]
    · simp [Table.find?_put_of_ne _ _ hid, hid]

def retain (h : Host) (x : Instance) : Host :=
  match h.instances.find? x.id with
  | none => h
  | some l => { h with instances := h.instances.put x.id { l with uses := l.uses + 1 } }

def destroy (h : Host) (x : Instance) : Host :=
  let gone := { h with instances := h.instances.erase x.id }
  let deleted :=
    match x.info.deleter with
    | .plugin => gone.call x.library.origin (.delete x.tag x.id)
    | .leak => gone
  ((deleted.countLive x.library (· - 1)).note (.destroyed x.info.name)).releaseLibrary x.library

/-- Gives back an instance; with the last holder it is destroyed. -/
def release (h : Host) (x : Instance) : Host :=
  match h.instances.find? x.id with
  | none => h
  | some l =>
    if l.uses ≤ 1 then h.destroy x
    else { h with instances := h.instances.put x.id { l with uses := l.uses - 1 } }

def uses (h : Host) (x : Instance) : Nat :=
  match h.instances.find? x.id with
  | none => 0
  | some l => l.uses

/-! ## Capabilities -/

def resolve (h : Host) (x : Instance) (interface : String) : Option Pointer × Host :=
  (x.find? interface,
    match x.castCall interface with
    | some c => h.call x.library.origin c
    | none => h)

def use (h : Host) (x : Instance) (p : Pointer) (arg : Argument) : Reply × Host :=
  match x.implemented p, h.instances.find? x.id with
  | some i, some l =>
    let outcome := l.state.use x.tag i arg
    (outcome.1, { h with instances := h.instances.put x.id { l with state := outcome.2 } })
  | _, _ => (.nothing, h)

end PluginHost.Host
