import PluginHost.Proofs.Handle.Soundness
import PluginHost.Proofs.Loader.Backing
import PluginHost.World.Action

/-!
# Every action is sound

A world owns what its loaders refer to and what its handles and shared capabilities hold, and its host is
in balance with that. On the way through an action some instances have a holder that is not kept yet, or
is no longer kept; these are spare.

* `World.references`, `World.held`: what a world owns.
* `World.Sound`: the host is sound for it, and so is every loader.
* `World.Sound.after`: an action keeps a world sound.
* `World.sound_of_reachable`: every reachable world is sound.
-/

namespace PluginHost.World

set_option autoImplicit false

open PluginHost.Table

/-! ## What a world owns -/

def referencesOf (loaders : Table String Loader) : Multiset Library :=
  loaders.bag.bind Loader.references

/-- The instances that some handles hold, each once for every handle. -/
def heldBy (handles : Table String Holder) : Multiset Instance :=
  handles.bag.bind fun x => x.handle.owned

def references (w : World) : Multiset Library := referencesOf w.loaders

/-- The instances that are held, each once for every holder. -/
def held (w : World) : Multiset Instance := heldBy w.handles + w.shares.bag.map Shared.owner

theorem mem_referencesOf {loaders : Table String Loader} {name : String} {L : Loader} {l : Library}
    (hL : loaders.find? name = some L) (hl : l ∈ L.references) : l ∈ referencesOf loaders :=
  Multiset.mem_bind.2 ⟨L, mem_bag.2 (mem_values_of_find? hL), hl⟩

theorem owned_subset_heldBy {handles : Table String Holder} {name : String} {x : Holder}
    (hx : handles.find? name = some x) : x.handle.owned ⊆ heldBy handles := fun _ hy =>
  Multiset.mem_bind.2 ⟨x, mem_bag.2 (mem_values_of_find? hx), hy⟩

theorem owned_subset_held {w : World} {name : String} {x : Holder}
    (hx : w.handles.find? name = some x) : x.handle.owned ⊆ w.held := fun _ hy =>
  Multiset.mem_add.2 (.inl (owned_subset_heldBy hx hy))

theorem owned_subset {w : World} {name : String} {x : Holder} (spare : Multiset Instance)
    (hx : w.handles.find? name = some x) : x.handle.owned ⊆ spare + w.held := fun _ hy =>
  Multiset.mem_add.2 (.inr (owned_subset_held hx hy))

theorem owner_mem_held {w : World} {name : String} {s : Shared}
    (hshare : w.shares.find? name = some s) : s.owner ∈ w.held :=
  Multiset.mem_add.2 (.inr (Multiset.mem_map_of_mem _ (mem_bag.2 (mem_values_of_find? hshare))))

theorem bind_put {ν μ : Type} {t : Table String ν} (hd : t.Distinct) (f : ν → Multiset μ)
    (name : String) (v : ν) :
    (t.put name v).bag.bind f = f v + (t.erase name).bag.bind f := by
  rw [bag_put hd, Multiset.cons_bind]

theorem bind_of_find? {ν μ : Type} {t : Table String ν} (hd : t.Distinct) (f : ν → Multiset μ)
    {name : String} {v : ν} (hv : t.find? name = some v) :
    t.bag.bind f = f v + (t.erase name).bag.bind f := by
  rw [bag_of_find? hd hv, Multiset.cons_bind]

/-- The action makes an instance of this identity. -/
def Bears (w : World) (a : Action) (id : Nat) : Prop :=
  match a with
  | .instantiate loader plugin _ _ =>
    ∃ L x, w.loaders.find? loader = some L ∧ (L.instantiate w.host plugin).1.held = some x ∧ x.id = id
  | _ => False

/-! ## Sound worlds -/

/-- The tables are in order, and the host is sound for what the world owns and `spare` besides. -/
structure Sound (births : Nat → Prop) (earlier : Host) (w : World) (spare : Multiset Instance) :
    Prop where
  loaders : w.loaders.Distinct
  handles : w.handles.Distinct
  shares : w.shares.Distinct
  consistent : ∀ name L, w.loaders.find? name = some L → L.Consistent
  backed : ∀ name L, w.loaders.find? name = some L → L.Backed w.host
  host : Host.Sound births earlier w.host 0 w.references (spare + w.held)

theorem sound_start (births : Nat → Prop) (files : FileTree) :
    Sound births (start files).host (start files) 0 where
  loaders := distinct_nil
  handles := distinct_nil
  shares := distinct_nil
  consistent := by intro name L hL; simp [start] at hL
  backed := by intro name L hL; simp [start] at hL
  host := Host.sound_start births files

namespace Sound

variable {births : Nat → Prop} {earlier : Host} {w w' : World} {spare spare' : Multiset Instance}
  {name : String} {x : Holder} {handle : Handle}

theorem restart (hs : Sound births earlier w spare) : Sound births w.host w spare :=
  { hs with host := hs.host.restart }

/-- A step: what is left to say of the new world. A loader that stays remains backed. -/
theorem step (hs : Sound births earlier w spare) (loaders : w'.loaders.Distinct)
    (handles : w'.handles.Distinct) (shares : w'.shares.Distinct)
    (each : ∀ name L, w'.loaders.find? name = some L →
      w.loaders.find? name = some L ∨ L.Consistent ∧ L.Backed w'.host)
    (host : Host.Sound births w.host w'.host 0 w'.references (spare' + w'.held)) :
    Sound births earlier w' spare' where
  loaders := loaders
  handles := handles
  shares := shares
  consistent := by
    intro name L hL
    rcases each name L hL with hold | ⟨hc, -⟩
    · exact hs.consistent name L hold
    · exact hc
  backed := by
    intro name L hL
    rcases each name L hL with hold | ⟨-, hb⟩
    · intro n e he
      refine hs.host.backs_kept host (hs.backed name L hold n e he) ?_
      exact mem_referencesOf hL (Loader.mem_references_of_index he)
    · exact hb
  host := ⟨host.balanced, host.chronicled, hs.host.follows.trans host.follows⟩

theorem holding (hs : Sound births earlier w spare) (loaders : w'.loaders = w.loaders)
    (handles : w'.handles.Distinct) (shares : w'.shares.Distinct)
    (host : Host.Sound births w.host w'.host 0 w.references (spare' + w'.held)) :
    Sound births earlier w' spare' := by
  refine hs.step ?_ handles shares (fun name L hL => .inl ?_) ?_
  · rw [loaders]; exact hs.loaders
  · rw [← loaders]; exact hL
  · simp only [references, loaders]; exact host

theorem hosted {h : Host} (hs : Sound births earlier w spare)
    (host : Host.Sound births w.host h 0 w.references (spare' + w.held)) :
    Sound births earlier { w with host := h } spare' :=
  hs.holding rfl hs.handles hs.shares host

/-! ## Keeping and letting go -/

/-- A name is given to another holder; what it held before is spare, and what it holds now is not. -/
theorem exchange (hs : Sound births earlier w spare) (hx : w.handles.find? name = some x) {y : Holder}
    (hspare : y.handle.owned + spare' = x.handle.owned + spare) :
    Sound births earlier { w with handles := w.handles.put name y } spare' := by
  refine hs.holding rfl (hs.handles.put name y) hs.shares ?_
  convert hs.restart.host using 1
  simp only [held, heldBy]
  rw [bind_put hs.handles, bind_of_find? hs.handles _ hx]
  -- only the two holders under the name differ
  calc
    _ = y.handle.owned + spare' + (heldBy (w.handles.erase name) + w.shares.bag.map Shared.owner) := by
      simp only [heldBy]; abel
    _ = x.handle.owned + spare + (heldBy (w.handles.erase name) + w.shares.bag.map Shared.owner) := by
      rw [hspare]
    _ = _ := by simp only [heldBy]; abel

theorem empty (hs : Sound births earlier w spare) (hx : w.handles.find? name = some x) :
    Sound births earlier { w with handles := w.handles.put name x.emptied } (x.handle.owned + spare) := by
  refine hs.exchange hx ?_
  rw [Holder.owned_emptied, zero_add]

theorem lift (hs : Sound births earlier w spare) (hx : w.handles.find? name = some x) :
    Sound births earlier { w with handles := w.handles.erase name } (x.handle.owned + spare) := by
  refine hs.holding rfl (hs.handles.erase name) hs.shares ?_
  convert hs.restart.host using 1
  simp only [held, heldBy]
  rw [bind_of_find? hs.handles _ hx]
  abel

theorem release (hs : Sound births earlier w (handle.owned + spare)) :
    Sound births earlier { w with host := handle.release w.host } spare := by
  refine hs.hosted (Host.Sound.releaseHandle ?_)
  rw [← add_assoc]
  exact hs.restart.host

theorem retain (hs : Sound births earlier w spare) (hsub : handle.owned ⊆ w.held) :
    Sound births earlier { w with host := handle.retain w.host } (handle.owned + spare) := by
  refine hs.hosted ?_
  rw [add_assoc]
  refine hs.restart.host.retainHandle fun y hy => ?_
  exact Multiset.mem_add.2 (.inr (hsub hy))

theorem keep (hs : Sound births earlier w (x.handle.owned + spare)) (name : String) :
    Sound births earlier (w.keep name x) spare := by
  unfold World.keep
  cases hold : w.handles.find? name with
  | none =>
    refine hs.holding rfl (hs.handles.put name x) hs.shares ?_
    convert hs.restart.host using 1
    simp only [held, heldBy]
    rw [bind_put hs.handles, erase_of_find?_eq_none hold]
    abel
  | some old =>
    have hspare : x.handle.owned + (old.handle.owned + spare) =
        old.handle.owned + (x.handle.owned + spare) := by abel
    exact (hs.exchange hold hspare).release

theorem keepShared {s : Shared} (hs : Sound births earlier w (s.owner ::ₘ spare)) (name : String) :
    Sound births earlier (w.keepShared name s) spare := by
  have hhost := hs.restart.host
  refine hs.holding rfl hs.handles (hs.shares.put name s) ?_
  have hbag := bag_put hs.shares name s
  simp only [World.keepShared, held] at hhost ⊢
  rw [hbag, Multiset.map_cons]
  cases hold : w.shares.find? name with
  | none =>
    rw [erase_of_find?_eq_none hold]
    convert hhost using 1
    simp only [← Multiset.singleton_add]
    abel
  | some old =>
    rw [bag_of_find? hs.shares hold, Multiset.map_cons] at hhost
    refine Host.Sound.release ?_
    convert hhost using 1
    simp only [← Multiset.singleton_add]
    abel

/-! ## Loaders -/

theorem references_eq {L : Loader} (hs : Sound births earlier w spare)
    (hL : w.loaders.find? name = some L) :
    w.references = L.references + referencesOf (w.loaders.erase name) :=
  bind_of_find? hs.loaders Loader.references hL

theorem loaderAt {L : Loader} (hs : Sound births earlier w spare) (hL : w.loaders.find? name = some L) :
    L.Sound births earlier w.host 0 (referencesOf (w.loaders.erase name)) (spare + w.held) := by
  have hc := hs.consistent name L hL
  refine ⟨hc.libraries, hc.index, ?_⟩
  have hhost := hs.host
  rw [hs.references_eq hL] at hhost
  exact hhost

theorem putLoader {L : Loader} {h : Host} (hs : Sound births earlier w spare) (hc : L.Consistent)
    (hb : L.Backed h)
    (hL : L.Sound births w.host h 0 (referencesOf (w.loaders.erase name)) (spare' + w.held)) :
    Sound births earlier { w with host := h, loaders := w.loaders.put name L } spare' := by
  refine hs.step (hs.loaders.put name L) hs.handles hs.shares (fun other M hM => ?_) ?_
  · simp only [find?_put] at hM
    split at hM
    · rw [← Option.some.inj hM]
      exact .inr ⟨hc, hb⟩
    · exact .inl hM
  · simp only [references, referencesOf]
    rw [bind_put hs.loaders]
    exact hL.host

theorem onLoader {α : Type} {f : Loader → Host → α × Loader × Host} (hs : Sound births earlier w 0)
    (hf : ∀ L referred held, L.Consistent → L.Backed w.host →
      L.Sound births w.host w.host 0 referred held → (f L w.host).2.1.Consistent ∧
      (f L w.host).2.1.Backed (f L w.host).2.2 ∧
      (f L w.host).2.1.Sound births w.host (f L w.host).2.2 0 referred held) (name : String) :
    Sound births earlier (w.onLoader name f).2 0 := by
  unfold World.onLoader
  split
  · exact hs
  · next L hL =>
    obtain ⟨hc, hb, hL'⟩ := hf L _ _ (hs.consistent name L hL) (hs.backed name L hL)
      (hs.restart.loaderAt hL)
    exact hs.putLoader hc hb hL'

theorem newLoader (hs : Sound births earlier w 0) (name : String) (source : Config.Source)
    (env : Environment) : Sound births earlier (w.newLoader name source env).2 0 := by
  unfold World.newLoader
  split
  · exact hs
  · next config _ =>
    refine hs.putLoader (Loader.consistent_withConfig config) (Loader.backed_withConfig config _)
      ⟨distinct_nil, distinct_nil, ?_⟩
    rw [Loader.references_withConfig, zero_add]
    cases hold : w.loaders.find? name with
    | some old => exact (hs.restart.loaderAt hold).dispose
    | none =>
      rw [erase_of_find?_eq_none hold]
      exact hs.restart.host

theorem dropLoader (hs : Sound births earlier w 0) (name : String) :
    Sound births earlier (w.dropLoader name).2 0 := by
  unfold World.dropLoader
  split
  · exact hs
  · next L hL =>
    refine hs.step (hs.loaders.erase name) hs.handles hs.shares (fun other M hM => ?_)
      (hs.restart.loaderAt hL).dispose
    simp only [find?_erase] at hM
    split at hM
    · simp at hM
    · exact .inl hM

/-- A loader makes a handle, and the handle owns what was made. -/
theorem made {L : Loader} (hs : Sound births earlier w 0) (hL : w.loaders.find? name = some L)
    (plugin : String) (candidates : Option Candidates)
    (hbirth : ∀ x, (L.instantiate w.host plugin).1.held = some x → births x.id) :
    let made := L.instantiate w.host plugin
    let holder := Holder.make made.1 candidates made.2
    Sound births earlier { w with host := holder.2 } (holder.1.handle.owned + 0) := by
  have hmade := (Loader.sound_instantiate (hs.restart.loaderAt hL) (hs.backed name L hL) plugin hbirth).host
  rw [← hs.references_eq hL] at hmade
  have hbound := hmade.make (Multiset.subset_of_le (Multiset.le_add_right _ _)) candidates
  refine hs.hosted ?_
  rw [Holder.make_handle, add_assoc]
  exact hbound

theorem instantiate (hs : Sound births earlier w 0) (loader plugin name : String)
    (candidates : Option Candidates)
    (hbirth : ∀ L x, w.loaders.find? loader = some L → (L.instantiate w.host plugin).1.held = some x →
      births x.id) : Sound births earlier (w.instantiate loader plugin name candidates).2 0 := by
  unfold World.instantiate
  split
  · exact hs
  · next L hL =>
    have hmade := hs.made hL plugin candidates fun x hx => hbirth L x hL hx
    exact keep hmade name

/-! ## Handles -/

theorem onHandle {α : Type} {f : Holder → World → α × World} (hs : Sound births earlier w 0)
    (hf : ∀ x, w.handles.find? name = some x → Sound births earlier (f x w).2 0) :
    Sound births earlier (w.onHandle name f).2 0 := by
  unfold World.onHandle
  split
  · exact hs
  · next x hx => exact hf x hx

theorem newHandle (hs : Sound births earlier w 0) (name : String) (candidates : Option Candidates) :
    Sound births earlier (w.newHandle name candidates).2 0 := by
  refine keep ?_ name
  cases candidates <;> exact hs

theorem cloneHandle (hs : Sound births earlier w 0) (name goal : String) :
    Sound births earlier (w.cloneHandle name goal).2 0 :=
  hs.onHandle fun _ hx => (hs.retain (owned_subset_held hx)).keep goal

theorem takeHandle (hs : Sound births earlier w 0) (name goal : String) :
    Sound births earlier (w.takeHandle name goal).2 0 :=
  hs.onHandle fun _ hx => (hs.empty hx).keep goal

theorem specialize (hs : Sound births earlier w 0) (name goal : String) (candidates : Candidates) :
    Sound births earlier (w.specialize name goal candidates).2 0 := by
  refine hs.onHandle fun x hx => ?_
  have hretained := hs.retain (owned_subset_held hx)
  have hbound := hretained.hosted
    (hretained.restart.host.bind (owned_subset (x.handle.owned + 0) hx) candidates)
  let bound := Specialized.bind x.handle candidates (x.handle.retain w.host)
  exact keep (x := .specialized bound.1) hbound goal

theorem generalize (hs : Sound births earlier w 0) (name goal : String) :
    Sound births earlier (w.generalize name goal).2 0 := by
  refine hs.onHandle fun x hx => ?_
  have hlifted := hs.lift hx
  exact keep (x := .generic x.handle) hlifted goal

theorem resetHandle (hs : Sound births earlier w 0) (name : String) :
    Sound births earlier (w.resetHandle name).2 0 :=
  hs.onHandle fun _ hx => (hs.empty hx).release

theorem dropHandle (hs : Sound births earlier w 0) (name : String) :
    Sound births earlier (w.dropHandle name).2 0 := by
  unfold World.dropHandle
  split
  · exact hs
  · next x hx => exact (hs.lift hx).release

/-! ## Capabilities -/

theorem useFound {found : Option Pointer × Host} {opened : Multiset Nat}
    {referred : Multiset Library} {held : Multiset Instance}
    (hs : Host.Sound births earlier found.2 opened referred held) (handle : Handle) (arg : Argument) :
    Host.Sound births earlier (World.useFound handle found arg).2 opened referred held := by
  unfold World.useFound
  split
  · exact hs.use _ _ _
  · exact hs

theorem query (hs : Sound births earlier w 0) (name : String) (i : Interface) (arg : Argument) :
    Sound births earlier (w.query name i arg).2 0 := by
  refine hs.onHandle fun x hx => ?_
  have hfound := hs.restart.host.queryHolder (owned_subset 0 hx) i
  exact hs.hosted (useFound hfound x.handle arg)

theorem require (hs : Sound births earlier w 0) (name : String) (i : Interface) (arg : Argument) :
    Sound births earlier (w.require name i arg).2 0 := by
  refine hs.onHandle fun x hx => ?_
  have hfound := hs.restart.host.queryHolder (owned_subset 0 hx) i
  exact hs.hosted (useFound hfound x.handle arg)

theorem queryNamed (hs : Sound births earlier w 0) (name interface : String) (arg : Argument) :
    Sound births earlier (w.queryNamed name interface arg).2 0 := by
  refine hs.onHandle fun x hx => ?_
  have hfound := hs.restart.host.queryHandle (owned_subset 0 hx) interface
  exact hs.hosted (useFound hfound x.handle arg)

theorem find (hs : Sound births earlier w 0) (name interface : String) :
    Sound births earlier (w.find name interface).2 0 := by
  refine hs.onHandle fun x hx => ?_
  exact hs.hosted (hs.restart.host.queryHandle (owned_subset 0 hx) interface)

theorem findTwice (hs : Sound births earlier w 0) (name : String) (i : Interface) :
    Sound births earlier (w.findTwice name i).2 0 := by
  refine hs.onHandle fun x hx => ?_
  have hown := hs.restart.host.queryHolder (owned_subset 0 hx) i
  exact hs.hosted (hown.queryHandle (owned_subset 0 hx) i.name)

/-! ## Shared capabilities -/

/-- An instance that is held gets one more holder. -/
theorem retainOwner {h : Host} {y : Instance} (hs : Sound births earlier w 0)
    (host : Host.Sound births w.host h 0 w.references (0 + w.held)) (hy : y ∈ w.held) :
    Sound births earlier { w with host := h.retain y } (y ::ₘ 0) := by
  refine hs.hosted ?_
  rw [Multiset.cons_add]
  exact host.retain (Multiset.mem_add.2 (.inr hy))

theorem share (hs : Sound births earlier w 0) (name : String) (i : Interface) (goal : String) :
    Sound births earlier (w.share name i goal).2 0 := by
  refine hs.onHandle fun x hx => ?_
  have hfound := hs.restart.host.queryHolder (owned_subset 0 hx) i
  simp only
  split
  · next owner p hheld _ =>
    have howner := owned_subset_held hx (Handle.mem_owned.2 hheld)
    exact keepShared (s := ⟨owner, p, i⟩) (hs.retainOwner hfound howner) goal
  · exact hs.hosted hfound

theorem callShared (hs : Sound births earlier w 0) (name : String) (arg : Argument) :
    Sound births earlier (w.callShared name arg).2 0 := by
  unfold World.callShared
  split
  · exact hs
  · exact hs.hosted (hs.restart.host.use _ _ _)

theorem cloneShared (hs : Sound births earlier w 0) (name goal : String) :
    Sound births earlier (w.cloneShared name goal).2 0 := by
  unfold World.cloneShared
  split
  · exact hs
  · next s hshare =>
    have hretained := hs.retainOwner hs.restart.host (owner_mem_held hshare)
    exact hretained.keepShared goal

theorem handleOfShared (hs : Sound births earlier w 0) (name goal : String) :
    Sound births earlier (w.handleOfShared name goal).2 0 := by
  unfold World.handleOfShared
  split
  · exact hs
  · next s hshare =>
    have hretained := hs.retainOwner hs.restart.host (owner_mem_held hshare)
    exact keep (x := .generic s.handle) hretained goal

theorem dropShared (hs : Sound births earlier w 0) (name : String) :
    Sound births earlier (w.dropShared name).2 0 := by
  unfold World.dropShared
  split
  · exact hs
  · next s hshare =>
    refine hs.holding rfl hs.handles (hs.shares.erase name) (Host.Sound.release ?_)
    convert hs.restart.host using 1
    simp only [held]
    rw [bag_of_find? hs.shares hshare, Multiset.map_cons, Multiset.add_cons, Multiset.add_cons]

theorem changeFiles (hs : Sound births earlier w 0) (change : FileChange) :
    Sound births earlier (w.changeFiles change) 0 :=
  hs.hosted (hs.restart.host.withFiles _)

/-! ## Every action -/

theorem after (hs : Sound births earlier w 0) (a : Action) (hbirths : ∀ id, w.Bears a id → births id) :
    Sound births earlier (w.after a) 0 := by
  cases a with
  | newLoader loader source env => exact hs.newLoader loader source env
  | dropLoader loader => exact hs.dropLoader loader
  | load loader p =>
    exact hs.onLoader (fun L _ _ hc hb hL => ⟨hc.load _ p, hb.load hL p, hL.load p⟩) loader
  | tryLoad loader p =>
    exact hs.onLoader (fun L _ _ hc hb hL => ⟨hc.tryLoad _ p, hb.tryLoad hL p, hL.tryLoad p⟩) loader
  | loadConfigured loader =>
    exact hs.onLoader (fun L _ _ hc hb hL =>
      ⟨hc.loadAll _ _, hb.loadAll hL _, hL.loadConfigured⟩) loader
  | forget loader p =>
    exact hs.onLoader (fun L _ _ hc hb hL => ⟨hc.forget _ p, hb.forget hL p, hL.forget p⟩) loader
  | forgetOf loader plugin =>
    exact hs.onLoader (fun L _ _ hc hb hL =>
      ⟨hc.forgetOf _ plugin, hb.forgetOf hL plugin, hL.forgetOf plugin⟩) loader
  | instantiate loader plugin name candidates =>
    refine hs.instantiate loader plugin name candidates fun L x hL hx => ?_
    exact hbirths x.id ⟨L, x, hL, hx, rfl⟩
  | newHandle name candidates => exact hs.newHandle name candidates
  | cloneHandle name goal => exact hs.cloneHandle name goal
  | takeHandle name goal => exact hs.takeHandle name goal
  | specialize name goal candidates => exact hs.specialize name goal candidates
  | generalize name goal => exact hs.generalize name goal
  | resetHandle name => exact hs.resetHandle name
  | dropHandle name => exact hs.dropHandle name
  | query name i arg => exact hs.query name i arg
  | require name i arg => exact hs.require name i arg
  | queryNamed name interface arg => exact hs.queryNamed name interface arg
  | find name interface => exact hs.find name interface
  | findTwice name i => exact hs.findTwice name i
  | share name i goal => exact hs.share name i goal
  | callShared name arg => exact hs.callShared name arg
  | cloneShared name goal => exact hs.cloneShared name goal
  | handleOfShared name goal => exact hs.handleOfShared name goal
  | dropShared name => exact hs.dropShared name
  | changeFiles change => exact hs.changeFiles change

end Sound

theorem sound_of_reachable (births : Nat → Prop) {w : World} (hw : Reachable w) :
    Sound births w.host w 0 := by
  induction hw generalizing births with
  | start files => exact sound_start births files
  | @step w a _ ih =>
    have hafter := (ih (w.Bears a)).after a fun _ hid => hid
    exact { hafter with
      host := ⟨hafter.host.balanced, hafter.host.chronicled, Host.Follows.refl births _⟩ }

end PluginHost.World
