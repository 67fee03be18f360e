import PluginHost.Proofs.Loader.Forgotten
import PluginHost.Proofs.Loader.Mirrors
import PluginHost.Proofs.World.Evolution
import PluginHost.Proofs.World.Soundness
import PluginHost.Proofs.World.Transparency

/-!
# Failed loads leave no trace

A load that fails, and a load whose plugins were all rejected, can be told from no load by what is said and
by the descriptors that were asked for. No loader, handle or shared capability changes, everything in
memory has its holds as before, and whatever is done next is answered as before: a look-up, a load, or the load
of everything that a loader is configured with. An instance that is made next may have another identity.

* `World.perform_fst_congr`: what the answer of an action depends on.
* `World.Traceless`: one world is another one without a trace of what happened in between.
* `World.traceless`: so it is after a failed load, in every reachable world.
-/

namespace PluginHost

set_option autoImplicit false

open PluginHost.Table

/-! ## What answers depend on -/

theorem Holder.query_fst_congr (x : Holder) (h h' : Host) (i : Interface) :
    (x.query h i).1 = (x.query h' i).1 := by
  cases x with
  | generic handle => simp only [query, Handle.query_fst]
  | specialized s =>
    simp only [query, Specialized.query]
    split
    · rfl
    · simp only [Handle.query_fst]

theorem Loader.forget_fst_congr (L : Loader) {h h' : Host} (hfiles : h'.files = h.files) (p : Path) :
    (L.forget h' p).1 = (L.forget h p).1 := by
  cases hkey : L.listedKey h.files p with
  | none =>
    have hkey' : L.listedKey h'.files p = none := by rw [hfiles, hkey]
    rw [(forget_of_not_listed hkey).1, (forget_of_not_listed hkey').1]
  | some key =>
    have hkey' : L.listedKey h'.files p = some key := by rw [hfiles, hkey]
    rw [(forget_of_listedKey hkey).1, (forget_of_listedKey hkey').1]

/-- The plugin that an instance is made of depends on the index alone. -/
theorem Loader.info_instantiate_congr (L : Loader) (h h' : Host) (plugin : String) :
    (L.instantiate h plugin).1.info = (L.instantiate h' plugin).1.info := by
  unfold instantiate
  split
  · next e _ =>
    by_cases hp : e.info.factory.product = .nothing
    · simp only [Host.instantiate_of_nothing _ e.library hp]
    · simp only [Handle.info, Host.instantiate_fst _ e.library hp, Option.map_some]
  · rfl

/-- The action makes an instance, which has a new identity. -/
def Action.Instantiates : Action → Prop
  | .instantiate .. => True
  | _ => False

namespace World

variable {w : World} {h : Host}

theorem answer_congr {α : Type} (f : α → Answer) {r r' : Option α × World} (h : r'.1 = r.1) :
    (Answer.ofOption f r').1 = (Answer.ofOption f r).1 := by
  simp only [Answer.ofOption, h]

theorem onLoader_fst {α : Type} (w : World) (loader : String) (f : Loader → Host → α × Loader × Host) :
    (w.onLoader loader f).1 = (w.loaders.find? loader).map fun L => (f L w.host).1 := by
  unfold onLoader
  split
  · next hnone => rw [hnone]; rfl
  · next hsome => rw [hsome]; rfl

theorem onHandle_fst {α : Type} (w : World) (name : String) (f : Holder → World → α × World) :
    (w.onHandle name f).1 = (w.handles.find? name).map fun x => (f x w).1 := by
  unfold onHandle
  split
  · next hnone => rw [hnone]; rfl
  · next hsome => rw [hsome]; rfl

theorem onLoader_fst_congr {α : Type} {loader : String} {f : Loader → Host → α × Loader × Host}
    (hf : ∀ L, (f L h).1 = (f L w.host).1) :
    (({ w with host := h } : World).onLoader loader f).1 = (w.onLoader loader f).1 := by
  simp only [onLoader_fst, hf]

theorem onHandle_fst_congr {α : Type} {name : String} {f : Holder → World → α × World}
    (hf : ∀ x, (f x { w with host := h }).1 = (f x w).1) :
    (({ w with host := h } : World).onHandle name f).1 = (w.onHandle name f).1 := by
  simp only [onHandle_fst, hf]

theorem useFound_query_fst_congr (hinstances : h.instances = w.host.instances) (x : Holder)
    (i : Interface) (arg : Argument) :
    (useFound x.handle (x.query h i) arg).1 = (useFound x.handle (x.query w.host i) arg).1 := by
  refine useFound_fst_congr (x.query_fst_congr h w.host i) ?_ arg
  rw [Holder.instances_query, Holder.instances_query, hinstances]

/-- What an action answers depends on the files, on the images that paths lead to and on the instances of the
host. Libraries that are loaded in a row may push one another out of memory, so that the images at the start do
not tell what all of them answer; hence `hconfigured`. -/
theorem perform_fst_congr (hfiles : h.files = w.host.files) (himages : ∀ p, h.imageAt p = w.host.imageAt p)
    (hinstances : h.instances = w.host.instances)
    (hconfigured : ∀ loader L, w.loaders.find? loader = some L →
      (L.loadConfigured h).1 = (L.loadConfigured w.host).1)
    {a : Action} (ha : ¬ a.Instantiates) :
    (({ w with host := h } : World).perform a).1 = (w.perform a).1 := by
  cases a with
  | newLoader loader source env =>
    simp only [perform, Answer.of, newLoader, hfiles]
    split <;> rfl
  | dropLoader loader =>
    simp only [perform, Answer.of, dropLoader]
    cases w.loaders.find? loader <;> rfl
  | load loader p =>
    exact answer_congr _ (onLoader_fst_congr fun L => L.load_fst_congr hfiles (himages p))
  | tryLoad loader p =>
    exact answer_congr _ (onLoader_fst_congr fun L => L.tryLoad_fst_congr hfiles (himages p))
  | loadConfigured loader =>
    refine answer_congr _ ?_
    simp only [loadConfigured, onLoader_fst]
    cases hL : w.loaders.find? loader with
    | none => rfl
    | some L => exact congrArg some (hconfigured loader L hL)
  | «instantiate» => exact absurd trivial ha
  | forget loader p => exact answer_congr _ (onLoader_fst_congr fun L => L.forget_fst_congr hfiles p)
  | forgetOf loader plugin =>
    refine answer_congr _ (onLoader_fst_congr fun L => ?_)
    simp only [Loader.forgetOf]
    split
    · exact L.forget_fst_congr hfiles _
    · rfl
  | newHandle | changeFiles => rfl
  | cloneHandle | takeHandle | specialize | generalize | resetHandle =>
    exact answer_congr _ (onHandle_fst_congr fun _ => rfl)
  | dropHandle name =>
    simp only [perform, Answer.of, dropHandle]
    cases w.handles.find? name <;> rfl
  | query name i arg =>
    exact answer_congr _ (onHandle_fst_congr fun x => useFound_query_fst_congr hinstances x i arg)
  | require name i arg =>
    refine answer_congr _ (onHandle_fst_congr fun x => ?_)
    simp only [useFound_query_fst_congr hinstances x i arg]
  | queryNamed name interface arg =>
    refine answer_congr _ (onHandle_fst_congr fun x => ?_)
    refine useFound_fst_congr ?_ ?_ arg
    · rw [Handle.query_fst, Handle.query_fst]
    · rw [Handle.instances_query, Handle.instances_query, hinstances]
  | find name interface =>
    refine answer_congr _ (onHandle_fst_congr fun x => ?_)
    simp only [Handle.query_fst]
  | findTwice name i =>
    refine answer_congr _ (onHandle_fst_congr fun x => ?_)
    simp only [Handle.query_fst, x.query_fst_congr h w.host i]
  | share name i goal =>
    refine answer_congr _ (onHandle_fst_congr fun x => ?_)
    simp only [x.query_fst_congr h w.host i]
    split <;> rfl
  | callShared name arg =>
    refine answer_congr _ ?_
    simp only [callShared]
    cases w.shares.find? name with
    | none => rfl
    | some s => exact congrArg some (Host.use_fst_congr hinstances s.owner s.pointer arg)
  | cloneShared name goal =>
    simp only [perform, cloneShared]
    cases w.shares.find? name <;> rfl
  | handleOfShared name goal =>
    simp only [perform, handleOfShared]
    cases w.shares.find? name <;> rfl
  | dropShared name =>
    simp only [perform, Answer.of, dropShared]
    cases w.shares.find? name <;> rfl

/-! ## Failed loads -/

/-- The world `w'` is the world `w` without a trace of what happened in between. -/
structure Traceless (w w' : World) : Prop where
  /-- The index, the table and the settings of every loader are what they were. -/
  loaders : w'.loaders = w.loaders
  handles : w'.handles = w.handles
  shares : w'.shares = w.shares
  /-- So are the files, the libraries, the instances, and the mappings with their holds; no factory, no
  cast function and no deleter was called. -/
  host : w.host.Restored w'.host
  live : ∀ l, w'.host.live l = w.host.live l
  uses : ∀ x, w'.host.uses x = w.host.uses x
  /-- The next action is answered as before, whatever it asks of a loader, a handle or a shared capability: also
  a load, and the load of everything that a loader is configured with. -/
  answers : ∀ a, ¬ Action.Instantiates a → (w'.perform a).1 = (w.perform a).1
  /-- From every plugin of every loader an instance is made as before, with an identity that may be another. -/
  made : ∀ loader plugin name candidates,
    (w'.instantiate loader plugin name candidates).1.map Handle.info =
      (w.instantiate loader plugin name candidates).1.map Handle.info

theorem traceless_of_restored (hr : w.host.Restored h)
    (hconfigured : ∀ loader L, w.loaders.find? loader = some L →
      (L.loadConfigured h).1 = (L.loadConfigured w.host).1) : Traceless w { w with host := h } where
  loaders := rfl
  handles := rfl
  shares := rfl
  host := hr
  live := hr.live
  uses := hr.uses
  answers := fun _ ha => perform_fst_congr hr.files hr.images hr.instances hconfigured ha
  made := by
    intro loader plugin name candidates
    simp only [World.instantiate]
    cases w.loaders.find? loader with
    | none => rfl
    | some L => exact congrArg some (L.info_instantiate_congr _ _ plugin)

/-- After a load that fails or registers nothing the world is as it was, and the load that only says why
has no other effect. -/
theorem traceless (hw : Reachable w) {loader : String} {p : Path} {answer : Except LoadError (List String)}
    (htry : (w.tryLoad loader p).1 = some answer) (hbarren : Loader.Barren answer) :
    Traceless w (w.tryLoad loader p).2 ∧
      (w.load loader p).1 = some [] ∧ Traceless w (w.load loader p).2 := by
  have hs := sound_of_reachable (fun _ => False) hw
  have hb := hs.host.balanced
  simp only [World.tryLoad, onLoader_fst, Option.map_eq_some_iff] at htry
  obtain ⟨L, hL, rfl⟩ := htry
  -- to load in a row, every loader has a mirror of the host it had
  have hconfigured : ∀ other M, w.loaders.find? other = some M →
      (M.loadConfigured (L.tryLoad w.host p).2.2).1 = (M.loadConfigured w.host).1 ∧
        (M.loadConfigured (L.load w.host p).2.2).1 = (M.loadConfigured w.host).1 := by
    intro other M hM
    obtain ⟨σ, htried, hloaded⟩ :=
      Loader.mirrors_of_barren (hs.loaderAt hM) (unambiguous_of_reachable hw) hbarren
    exact ⟨htried.loadConfigured_fst, hloaded.loadConfigured_fst⟩
  obtain ⟨hloader, hrestored⟩ := Loader.restored_tryLoad hb hbarren
  obtain ⟨hnames, hloader', hrestored'⟩ := Loader.restored_load hb hbarren
  have hworld : ∀ {α : Type} {f : Loader → Host → α × Loader × Host}, (f L w.host).2.1 = L →
      (w.onLoader loader f).2 = { w with host := (f L w.host).2.2 } := by
    intro α f hsame
    simp only [onLoader, hL, hsame, put_of_find? hL]
  refine ⟨?_, ?_, ?_⟩
  · rw [World.tryLoad, hworld hloader]
    exact traceless_of_restored hrestored fun other M hM => (hconfigured other M hM).1
  · rw [World.load, onLoader_fst, hL]
    exact congrArg some hnames
  · rw [World.load, hworld hloader']
    exact traceless_of_restored hrestored' fun other M hM => (hconfigured other M hM).2

/-- A loader that rejects duplicates is to load a file whose only plugin it knows already, and which
another loader has in memory. -/
def refused : World :=
  (start (.withDirectory ["w"])).run
    [.changeFiles (.write ⟨"/w/a.so"⟩ (.library Image.dummyPlugins)),
      .changeFiles (.write ⟨"/w/b.so"⟩ (.library (Image.ofRegistered "b" "dynaplug_dummy_plugins"
        [⟨"DummySinglePlugin", [Catalog.nameBase], .named "Taken"⟩]))),
      .newLoader "first" (.values (some "reject") none none) ⟨[]⟩,
      .newLoader "second" .standard ⟨[]⟩,
      .load "first" ⟨"/w/a.so"⟩,
      .load "second" ⟨"/w/b.so"⟩,
      .instantiate "second" "dynaplug_dummy_plugins::DummySinglePlugin" "h" none]

theorem traceless_of_refused : Reachable refused ∧
    (refused.tryLoad "first" ⟨"/w/b.so"⟩).1 = some (.ok []) ∧
    Traceless refused (refused.tryLoad "first" ⟨"/w/b.so"⟩).2 ∧
    (refused.tryLoad "first" ⟨"/w/c.so"⟩).1 = some (.error (.notFound ⟨"/w/c.so"⟩)) ∧
    Traceless refused (refused.load "first" ⟨"/w/c.so"⟩).2 := by
  have hreach : Reachable refused := (Reachable.start _).run _
  have hanswers : ((refused.tryLoad "first" ⟨"/w/b.so"⟩).1, (refused.tryLoad "first" ⟨"/w/c.so"⟩).1) =
      (some (.ok []), some (.error (.notFound ⟨"/w/c.so"⟩))) := by decide +kernel
  obtain ⟨hrejected, hmissing⟩ := Prod.mk.inj hanswers
  have hnone : Loader.Barren (.ok []) := fun _ heq => (Except.ok.inj heq).symm
  have herror : Loader.Barren (.error (.notFound ⟨"/w/c.so"⟩)) := fun _ heq => by cases heq
  exact ⟨hreach, hrejected, (traceless hreach hrejected hnone).1, hmissing,
    (traceless hreach hmissing herror).2.2⟩

end World

end PluginHost
