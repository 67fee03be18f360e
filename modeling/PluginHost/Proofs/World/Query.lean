import PluginHost.Proofs.Image.Uses
import PluginHost.Proofs.Loader.Query
import PluginHost.Proofs.World.Lookup
import PluginHost.World.Action

/-!
# Questions to loaders and handles

A handle for a plugin answers for itself, without its loader. When it is made, it answers what the loader
answers for the plugin, except that a cast may decline what the plugin lists.

* `Loader.Furnishes`: how the answers of a new handle go with those of its loader.
* `World.consulted`: in every reachable world the answers of a loader go with each other, and those of the
  handles that it makes go with them.
-/

namespace PluginHost

set_option autoImplicit false

open PluginHost.Table

/-! ## What an instance finds -/

namespace Instance

variable {x : Instance} {s : String}

/-- A capability is looked for among what the plugin lists. -/
theorem implements_of_find? (h : (x.find? s).isSome = true) : x.info.implements s = true := by
  obtain ⟨place, hplace⟩ := Option.isSome_iff_exists.1 h
  obtain ⟨c, hc, -⟩ := Option.bind_eq_some_iff.1 hplace
  rw [PluginInfo.implements, hc]
  rfl

theorem find?_of_implements (hcasts : ∀ e ∈ x.info.interfaces, (x.follow e.2).isSome = true)
    (h : x.info.implements s = true) : (x.find? s).isSome = true := by
  obtain ⟨c, hc⟩ := Option.isSome_iff_exists.1 h
  rw [find?, hc]
  exact hcasts (_, c) (Ordered.mem_of_find? hc)

end Instance

/-! ## Handles from a loader -/

namespace Loader

variable {L : Loader} {host : Host} {p : String}

/-- What a handle for a plugin answers, beside what the loader answers for the plugin. -/
structure Furnishes (L : Loader) (p : String) (handle : Handle) : Prop where
  /-- It is empty if the plugin is not known or its factory makes nothing. -/
  empty : handle.isEmpty = true ↔
    ∀ info, L.pluginInfo p = some info → info.factory.product = .nothing
  bound : handle.isEmpty = false →
    handle.plugin = some (Name.normalize p) ∧ handle.info = L.pluginInfo p ∧
      handle.library.map Library.path = L.libraryOf p
  found : ∀ s, (handle.find? s).isSome = true → Name.normalize p ∈ L.implementing s
  /-- When no cast declines, everything that the plugin lists is found. -/
  all : ∀ x, handle.held = some x → (∀ e ∈ x.info.interfaces, (x.follow e.2).isSome = true) →
    ∀ s, (handle.find? s).isSome = true ↔ Name.normalize p ∈ L.implementing s

theorem instantiate_of_unknown (h : L.pluginInfo p = none) : (L.instantiate host p).1.held = none := by
  have hindex : L.index.find? (Name.normalize p) = none := Option.map_eq_none_iff.1 h
  simp only [instantiate, hindex, Handle.empty]

theorem instantiate_of_index {e : IndexEntry} (he : L.index.find? (Name.normalize p) = some e) :
    (L.instantiate host p).1.held =
      if e.info.factory.product = .nothing then none else some ⟨host.fresh, e.info, e.library⟩ := by
  simp only [instantiate, he]
  split
  · next hproduct => rw [host.instantiate_of_nothing e.library hproduct]
  · next hproduct => exact host.instantiate_fst e.library hproduct

theorem furnishes_of_held_eq_none {handle : Handle} (hheld : handle.held = none)
    (hproduct : ∀ info, L.pluginInfo p = some info → info.factory.product = .nothing) :
    L.Furnishes p handle where
  empty := iff_of_true (by rw [Handle.isEmpty, hheld]; rfl) hproduct
  bound := fun h => by simp [Handle.isEmpty, hheld] at h
  found := fun s h => by simp [Handle.find?, hheld] at h
  all := fun x hx => by simp [hheld] at hx

theorem furnishes_of_index (ht : L.Tells) {handle : Handle} {e : IndexEntry} {x : Instance}
    (he : L.index.find? (Name.normalize p) = some e) (hproduct : e.info.factory.product ≠ .nothing)
    (hheld : handle.held = some x) (hinfo : x.info = e.info) (hlibrary : x.library = e.library) :
    L.Furnishes p handle := by
  have hknown : L.pluginInfo p = some x.info := by rw [pluginInfo, he, hinfo]; rfl
  have hlisted : ∀ s, Name.normalize p ∈ L.implementing s ↔ x.info.implements s = true := fun s => by
    simp only [ht.implementing, hknown, Option.some.injEq, exists_eq_left']
  have hfind : ∀ s, handle.find? s = x.find? s := fun s => by rw [Handle.find?, hheld]; rfl
  have hfound : ∀ s, (handle.find? s).isSome = true → Name.normalize p ∈ L.implementing s := fun s h =>
    (hlisted s).2 (x.implements_of_find? (hfind s ▸ h))
  refine ⟨iff_of_false ?_ fun h => hproduct (hinfo ▸ h x.info hknown), fun _ => ⟨?_, ?_, ?_⟩,
    hfound, fun y hy hcasts s => ⟨hfound s, fun h => ?_⟩⟩
  · simp [Handle.isEmpty, hheld]
  · rw [Handle.plugin, Handle.info, hheld]
    exact congrArg some (ht.named p x.info hknown)
  · rw [Handle.info, hheld, hknown]
    rfl
  · rw [Handle.library, hheld, libraryOf, he]
    exact congrArg (some ∘ Library.path) hlibrary
  · obtain rfl : x = y := Option.some.inj (hheld.symm.trans hy)
    rw [hfind]
    exact x.find?_of_implements hcasts ((hlisted s).1 h)

theorem Tells.instantiate (ht : L.Tells) (host : Host) (p : String) :
    L.Furnishes p (L.instantiate host p).1 := by
  cases he : L.index.find? (Name.normalize p) with
  | none =>
    have hunknown : L.pluginInfo p = none := by rw [pluginInfo, he]; rfl
    exact furnishes_of_held_eq_none (instantiate_of_unknown hunknown) fun info h => by
      simp [hunknown] at h
  | some e =>
    have hheld : (L.instantiate host p).1.held = _ := instantiate_of_index he
    split at hheld
    · next hproduct =>
      refine furnishes_of_held_eq_none hheld fun info h => ?_
      rw [pluginInfo, he] at h
      exact Option.some.inj h ▸ hproduct
    · next hproduct => exact furnishes_of_index ht he hproduct hheld rfl rfl

end Loader

/-! ## Questions in a world -/

namespace World

variable {w : World} {loader : String} {L : Loader}

theorem tells_of_reachable (hw : Reachable w) (hL : w.loaders.find? loader = some L) : L.Tells :=
  have hs := sound_of_reachable (fun _ => False) hw
  (represented_of_reachable hw hL).tells (hs.consistent loader L hL).index

/-- In every reachable world the answers of a loader go with each other. A handle that it makes, of either
form, is kept as it is answered, and its own answers go with those that the loader gave then. -/
theorem consulted (hw : Reachable w) (hL : w.loaders.find? loader = some L) :
    L.Tells ∧ ∀ p goal candidates, ∃ x : Holder,
      (w.perform (.instantiate loader p goal candidates)).1 = .handle x.handle ∧
      (w.after (.instantiate loader p goal candidates)).handles.find? goal = some x ∧
      x.candidates = candidates ∧ L.Furnishes p x.handle ∧
      ∀ s, ((w.after (.instantiate loader p goal candidates)).perform (.find goal s)).1 =
        .place (x.handle.find? s) := by
  have ht := tells_of_reachable hw hL
  refine ⟨ht, fun p goal candidates => ?_⟩
  let made := L.instantiate w.host p
  have hkept : (w.after (.instantiate loader p goal candidates)).handles.find? goal =
      some (Holder.make made.1 candidates made.2).1 := by
    simp only [after, perform, Answer.ofOption, instantiate, hL, keep, find?_put_self, made]
  refine ⟨(Holder.make made.1 candidates made.2).1, ?_, hkept, ?_, ?_, fun s => ?_⟩
  · simp only [perform, Answer.ofOption, instantiate, hL, Holder.make_handle, made]
  · cases candidates <;> rfl
  · rw [Holder.make_handle]
    exact ht.instantiate w.host p
  · simp only [perform, Answer.ofOption, find, onHandle, hkept, Handle.query_fst]

/-- A library with a plugin that lists more than it provides, and with one that makes nothing. -/
def wanting : Image where
  id := "a"
  reports := false
  version := some Abi.currentVersion
  infoSize := some Abi.descriptorSize
  multi := some
    ⟨[{ name := some (Text.Utf8.encode "half")
        interfaces := some
          [⟨some (Text.Utf8.encode Catalog.nameBase.name), some Catalog.nameBase⟩,
            ⟨some (Text.Utf8.encode Catalog.intBase.name), some Catalog.intBase⟩]
        factory := some ⟨"a.0", .cell [Catalog.nameBase], .named "half"⟩
        hasDeleter := true },
      { name := some (Text.Utf8.encode "none")
        interfaces := some [⟨some (Text.Utf8.encode Catalog.intBase.name), some Catalog.intBase⟩]
        factory := some ⟨"a.1", .nothing, .named "none"⟩
        hasDeleter := true }], none⟩
  single := none

/-- A loader knows these plugins, and one that provides what it lists. -/
def supplies : World :=
  (start (.withDirectory ["w"])).run
    [.changeFiles (.write ⟨"/w/a.so"⟩ (.library wanting)),
      .changeFiles (.write ⟨"/w/b.so"⟩ (.library
        (Image.ofRegistered "b" "shapes" [⟨"Square", [Catalog.nameBase], .named "Square"⟩]))),
      .newLoader "first" .standard ⟨[]⟩,
      .load "first" ⟨"/w/a.so"⟩,
      .load "first" ⟨"/w/b.so"⟩]

theorem consulted_of_supplies : Reachable supplies ∧ ∃ L, supplies.loaders.find? "first" = some L ∧
    L.Tells ∧ L.implementing Catalog.intBase.name = ["::half", "::none"] ∧
    L.implementing Catalog.nameBase.name = ["::half", "::shapes::Square"] ∧
    (∃ x : Holder, (supplies.perform (.instantiate "first" " half" "h" none)).1 = .handle x.handle ∧
      L.Furnishes " half" x.handle ∧ x.handle.plugin = some "::half") ∧
    ∃ x : Holder, (supplies.perform (.instantiate "first" "none" "h" none)).1 = .handle x.handle ∧
      L.Furnishes "none" x.handle := by
  have hreach : Reachable supplies := (Reachable.start _).run _
  have hanswers : (supplies.loaders.find? "first").map (fun L =>
      (L.implementing Catalog.intBase.name, L.implementing Catalog.nameBase.name)) =
        some (["::half", "::none"], ["::half", "::shapes::Square"]) := by decide +kernel
  obtain ⟨L, hL, hnames⟩ := Option.map_eq_some_iff.1 hanswers
  obtain ⟨ht, hmakes⟩ := consulted hreach hL
  obtain ⟨x, hx, -, -, hhalf, -⟩ := hmakes " half" "h" none
  obtain ⟨y, hy, -, -, hnone, -⟩ := hmakes "none" "h" none
  refine ⟨hreach, L, hL, ht, congrArg Prod.fst hnames, congrArg Prod.snd hnames, ⟨x, hx, hhalf, ?_⟩,
    y, hy, hnone⟩
  have hproduct : ((supplies.loaders.find? "first").bind fun L => L.pluginInfo " half").map
      (fun info => info.factory.product) = some (.cell [Catalog.nameBase]) := by decide +kernel
  obtain ⟨info, hinfo, hcell⟩ := Option.map_eq_some_iff.1 hproduct
  rw [hL, Option.bind_some] at hinfo
  have hfull : x.handle.isEmpty = false := by
    rw [Bool.eq_false_iff]
    intro hempty
    exact absurd ((hhalf.empty.1 hempty) info hinfo) (by rw [hcell]; decide)
  rw [(hhalf.bound hfull).1]
  decide +kernel

end World

end PluginHost
