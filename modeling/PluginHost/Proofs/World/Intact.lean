import PluginHost.Proofs.World.Apart
import PluginHost.Proofs.World.Failure
import PluginHost.Proofs.World.Frame
import PluginHost.Proofs.World.LifeCycle
import PluginHost.Proofs.World.Live

/-!
# What a program keeps is not disturbed

A handle that a program does not assign, reset, take or drop stays bound to its instance whatever else the
program does: its library may be forgotten or loaded again, its name may go to another library, its file may
change, its loader may be dropped. The instance lives, its library is kept, and its code is in memory as it
was. And what is done with one loader changes no entry, no listed library and no live count of another.

* `World.Spares`: no action of a run writes to a name.
* `World.Intact`: an instance is there as it was.
* `World.Framed`, `World.framed`: what stays along every run, from every reachable world.
-/

namespace PluginHost

set_option autoImplicit false

open PluginHost.Table PluginHost.Journal

namespace World

/-! ## Runs -/

/-- No action of the run is one that writes to the name. -/
def Spares (writes : World → Action → String → Prop) (name : String) : World → List Action → Prop
  | _, [] => True
  | w, a :: rest => ¬ writes w a name ∧ Spares writes name (w.after a) rest

theorem find?_handles_run {name : String} {actions : List Action} {w : World}
    (hs : Spares Assigns name w actions) :
    (w.run actions).handles.find? name = w.handles.find? name := by
  induction actions generalizing w with
  | nil => rfl
  | cons a rest ih => exact (ih hs.2).trans (find?_handles_after hs.1)

theorem find?_shares_run {name : String} {actions : List Action} {w : World}
    (hs : Spares AssignsShared name w actions) :
    (w.run actions).shares.find? name = w.shares.find? name := by
  induction actions generalizing w with
  | nil => rfl
  | cons a rest ih => exact (ih hs.2).trans (find?_shares_after hs.1)

theorem find?_loaders_run {name : String} {actions : List Action} {w : World}
    (ha : ∀ a ∈ actions, a.loader? ≠ some name) :
    (w.run actions).loaders.find? name = w.loaders.find? name := by
  induction actions generalizing w with
  | nil => rfl
  | cons a rest ih =>
    have hrest := ih (w := w.after a) fun b hb => ha b (List.mem_cons_of_mem a hb)
    exact hrest.trans (find?_loaders_after (ha a List.mem_cons_self))

theorem sound_run {earlier : Host} {w : World} (hs : Sound (fun _ => True) earlier w 0)
    (actions : List Action) : Sound (fun _ => True) earlier (w.run actions) 0 := by
  induction actions generalizing w with
  | nil => exact hs
  | cons a rest ih => exact ih (hs.after a fun _ _ => trivial)

/-! ## Instances -/

/-- The instance is in the later world what it was: it lives, it was not deleted, its library is kept, and
its code is in memory, from the image that it was read from. -/
structure Intact (w later : World) (x : Instance) : Prop where
  lives : later.Lives x
  spared : deletions later.host.journal x.id = 0
  library : later.Refers x.library
  image : ∃ m m', w.host.mappings.find? x.library.origin.mapping = some m ∧
    later.host.mappings.find? x.library.origin.mapping = some m' ∧ m'.image = m.image

theorem intact_of_held {w later : World} {x : Instance} (hs : Sound (fun _ => True) w.host w 0)
    (hs' : Sound (fun _ => True) w.host later 0) (hx : x ∈ w.held) (hx' : x ∈ later.held) :
    Intact w later x where
  lives := hs'.lives_iff.2 hx'
  spared := (hs'.spared hx').2
  library := .instance (hs'.lives_iff.2 hx') rfl
  image := by
    -- the later mapping is known by an identity of before, so it is the one of before
    have hheld : x ∈ 0 + w.held := by rwa [zero_add]
    have hheld' : x ∈ 0 + later.held := by rwa [zero_add]
    obtain ⟨m, hm⟩ := hs.host.balanced.resident_of_held hheld
    obtain ⟨m', hm'⟩ := hs'.host.balanced.resident_of_held hheld'
    have hlt := hs.host.balanced.mapping_lt_fresh hm
    obtain ⟨m₀, hm₀, himage⟩ := hs'.host.follows.mapped _ m' hlt hm'
    exact ⟨m₀, m', hm₀, hm', himage⟩

/-! ## Live counts -/

section Live

variable {w : World} {a : Action}

/-- What is done with a loader, other than making an instance, changes no live count at all. -/
theorem live_after_of_loader (hw : Reachable w) (ha : a.loader?.isSome = true) (l : Library) :
    (w.after a).host.live l = w.host.live l := by
  obtain ⟨hhandles, hshares⟩ := tables_after_of_loader ha
  have hheld : (w.after a).held = w.held := by rw [held, held, hhandles, hshares]
  rw [live_of_reachable (hw.step a), live_of_reachable hw, hheld]

/-- A new instance counts for a library of the loader that made it, so for the libraries of every other
loader the live counts are what they are when the handle that it takes the place of is dropped. -/
theorem live_after_instantiate (hw : Reachable w) {loader other : String} (hne : loader ≠ other)
    {L M : Loader} (hL : w.loaders.find? loader = some L) (hM : w.loaders.find? other = some M)
    {l : Library} (hl : l ∈ M.references) (plugin goal : String) (candidates : Option Candidates) :
    (w.after (.instantiate loader plugin goal candidates)).host.live l =
      (w.after (.dropHandle goal)).host.live l := by
  have hs := sound_of_reachable (fun _ => False) hw
  have hheld : (w.after (.instantiate loader plugin goal candidates)).held =
      (L.instantiate w.host plugin).1.owned + (w.after (.dropHandle goal)).held :=
    held_instantiate hs.handles hL plugin goal candidates
  rw [live_of_reachable (hw.step _), live_of_reachable (hw.step _), hheld]
  -- all that is held besides is the new instance, and its library is not one of the other loader
  refine count_owned_add fun x hx => ?_
  exact ids_ne_of_reachable hw hne hL hM (Loader.library_mem_references hx) hl

/-- Dropping a handle counts for the library of its instance and for no other library of a loader. -/
theorem live_after_dropHandle (hw : Reachable w) {goal name : String} {M : Loader}
    (hM : w.loaders.find? name = some M) {l : Library} (hl : l ∈ M.references)
    (hother : ∀ x y, w.handles.find? goal = some x → x.handle.held = some y → y.library ≠ l) :
    (w.after (.dropHandle goal)).host.live l = w.host.live l := by
  have hs := sound_of_reachable (fun _ => False) hw
  cases hx : w.handles.find? goal with
  | none =>
    have hsame : w.after (.dropHandle goal) = w := by
      simp only [after, perform, Answer.of, dropHandle, hx]
    rw [hsame]
  | some x =>
    have hheld : w.held = x.handle.owned + (w.after (.dropHandle goal)).held :=
      held_of_find? hs.handles hx
    rw [live_of_reachable (hw.step _), live_of_reachable hw, hheld]
    refine (count_owned_add fun y hy hid => hother x y hx hy ?_).symm
    have hmaker : y.library ∈ w.references + w.host.makers :=
      hs.refers_iff.1 (.instance (hs.lives_iff.2 (owned_subset_held hx (Handle.mem_owned.2 hy))) rfl)
    have hlisted : l ∈ w.references + w.host.makers :=
      Multiset.mem_add.2 (.inl (mem_referencesOf hM hl))
    exact hs.host.balanced.records.eq_of_key_eq hmaker hlisted hid

end Live

/-! ## Frames -/

/-- The handle `x` under a name is in the later world the one it was: it holds the same instance, with
its plugin and its library, and finds the same capabilities. -/
structure Keeps (w later : World) (name : String) (x : Holder) : Prop where
  kept : later.handles.find? name = some x
  intact : ∀ y, x.handle.held = some y → Intact w later y
  find : ∀ interface, (later.find name interface).1 = (w.find name interface).1
  findTwice : ∀ i, (later.findTwice name i).1 = (w.findTwice name i).1

/-- What no run and no single action disturbs. -/
structure Framed (w : World) : Prop where
  handle : ∀ actions name x, w.handles.find? name = some x → Spares Assigns name w actions →
    Keeps w (w.run actions) name x
  share : ∀ actions name s, w.shares.find? name = some s → Spares AssignsShared name w actions →
    (w.run actions).shares.find? name = some s ∧ Intact w (w.run actions) s.owner
  /-- A loader that no action is about has the index, the table and the settings that it had. -/
  loader : ∀ actions name L, w.loaders.find? name = some L → (∀ a ∈ actions, a.loader? ≠ some name) →
    (w.run actions).loaders.find? name = some L
  /-- Nothing that is done with a loader but making an instance changes a live count. -/
  live : ∀ a l, a.loader?.isSome = true → (w.after a).host.live l = w.host.live l
  /-- An instance that a loader makes does not count for another loader. -/
  made : ∀ loader other L M, loader ≠ other → w.loaders.find? loader = some L →
    w.loaders.find? other = some M → ∀ l ∈ M.references, ∀ goal,
      (∀ x y, w.handles.find? goal = some x → x.handle.held = some y → y.library ≠ l) →
        ∀ plugin candidates,
          (w.after (.instantiate loader plugin goal candidates)).host.live l = w.host.live l
  /-- If the new handle takes the place of one that does, the count is what dropping that one makes it. -/
  replaced : ∀ loader other L M, loader ≠ other → w.loaders.find? loader = some L →
    w.loaders.find? other = some M → ∀ l ∈ M.references, ∀ plugin goal candidates,
      (w.after (.instantiate loader plugin goal candidates)).host.live l =
        (w.after (.dropHandle goal)).host.live l

theorem keeps_of_intact {w later : World} {name : String} {x : Holder}
    (hx : w.handles.find? name = some x) (hx' : later.handles.find? name = some x)
    (hintact : ∀ y, x.handle.held = some y → Intact w later y) : Keeps w later name x where
  kept := hx'
  intact := hintact
  find := by
    intro interface
    simp only [World.find, onHandle_fst, hx, hx', Option.map_some, Handle.query_fst]
  findTwice := by
    intro i
    simp only [World.findTwice, onHandle_fst, hx, hx', Option.map_some, Handle.query_fst]
    rw [x.query_fst_congr later.host w.host i]

/-- In every reachable world what a program keeps is not disturbed by what it does elsewhere. -/
theorem framed {w : World} (hw : Reachable w) : Framed w := by
  have hs := (sound_of_reachable (fun _ => True) hw).restart
  constructor
  case handle =>
    intro actions name x hx hspares
    have hx' : (w.run actions).handles.find? name = some x := (find?_handles_run hspares).trans hx
    refine keeps_of_intact hx hx' fun y hy => ?_
    have hmem := Handle.mem_owned.2 hy
    exact intact_of_held hs (sound_run hs actions) (owned_subset_held hx hmem)
      (owned_subset_held hx' hmem)
  case share =>
    intro actions name s hshare hspares
    have hshare' : (w.run actions).shares.find? name = some s :=
      (find?_shares_run hspares).trans hshare
    exact ⟨hshare', intact_of_held hs (sound_run hs actions) (owner_mem_held hshare)
      (owner_mem_held hshare')⟩
  case loader => exact fun actions name L hL ha => (find?_loaders_run ha).trans hL
  case live => exact fun a l ha => live_after_of_loader hw ha l
  case made =>
    intro loader other L M hne hL hM l hl goal hother plugin candidates
    rw [live_after_instantiate hw hne hL hM hl, live_after_dropHandle hw hM hl hother]
  case replaced =>
    intro loader other L M hne hL hM l hl plugin goal candidates
    exact live_after_instantiate hw hne hL hM hl plugin goal candidates

/-- Two loaders know the same file, and a program keeps two handles and a shared capability of an instance
that the first one made. -/
def entangled : World :=
  (start (.withDirectory ["w"])).run
    [.changeFiles (.write ⟨"/w/a.so"⟩ (.library Image.dummyPlugins)),
      .changeFiles (.write ⟨"/w/b.so"⟩ (.library (Image.ofRegistered "b" "dynaplug_dummy_plugins"
        [⟨"DummySinglePlugin", [Catalog.nameBase], .named "Taken"⟩]))),
      .newLoader "first" .standard ⟨[]⟩,
      .newLoader "second" .standard ⟨[]⟩,
      .load "first" ⟨"/w/a.so"⟩,
      .load "second" ⟨"/w/a.so"⟩,
      .instantiate "first" "dynaplug_dummy_plugins::DummySinglePlugin" "h" none,
      .cloneHandle "h" "g",
      .share "h" Catalog.nameBase "s"]

/-- Its library is forgotten and loaded again, its name goes to another library, its file is removed and
its loader dropped, and then the handle itself. -/
def disruption : List Action :=
  [.forget "first" ⟨"/w/a.so"⟩,
    .load "first" ⟨"/w/a.so"⟩,
    .load "first" ⟨"/w/b.so"⟩,
    .changeFiles (.remove ⟨"/w/a.so"⟩),
    .dropLoader "first",
    .dropHandle "h"]

theorem framed_of_entangled : Reachable entangled ∧ Spares Assigns "g" entangled disruption ∧
    (∃ x y, x.handle.held = some y ∧ y.id = 4 ∧ Keeps entangled (entangled.run disruption) "g" x) ∧
    (∃ s, (entangled.run disruption).shares.find? "s" = some s ∧ s.owner.id = 4 ∧
      Intact entangled (entangled.run disruption) s.owner) ∧
    (∃ M, M.plugins ≠ [] ∧ (entangled.run disruption).loaders.find? "second" = some M) := by
  have hreach : Reachable entangled := (Reachable.start _).run _
  have hframed : Framed entangled := framed hreach
  have hspares : Spares Assigns "g" entangled disruption := by
    simp [Spares, disruption, Assigns]
  have hspares' : Spares AssignsShared "s" entangled disruption := by
    simp [Spares, disruption, AssignsShared]
  have hothers : ∀ a ∈ disruption, a.loader? ≠ some "second" := by
    simp [disruption, Action.loader?]
  have hkept : (((entangled.handles.find? "g").bind fun x => x.handle.held).map Instance.id,
      (entangled.shares.find? "s").map fun s => s.owner.id,
      (entangled.loaders.find? "second").map fun M => M.plugins.isEmpty) =
      (some 4, some 4, some false) := by decide +kernel
  obtain ⟨hbound, hrest⟩ := Prod.mk.inj hkept
  obtain ⟨hshared, hknown⟩ := Prod.mk.inj hrest
  obtain ⟨y, hy, hid⟩ := Option.map_eq_some_iff.1 hbound
  obtain ⟨x, hx, hheld⟩ := Option.bind_eq_some_iff.1 hy
  obtain ⟨s, hs, hsid⟩ := Option.map_eq_some_iff.1 hshared
  obtain ⟨M, hM, hplugins⟩ := Option.map_eq_some_iff.1 hknown
  obtain ⟨hs', hintact⟩ := hframed.share disruption "s" s hs hspares'
  refine ⟨hreach, hspares, ⟨x, y, hheld, hid, hframed.handle disruption "g" x hx hspares⟩,
    ⟨s, hs', hsid, hintact⟩, M, ?_, hframed.loader disruption "second" M hM hothers⟩
  intro hnil
  simp [hnil] at hplugins

end World

end PluginHost
