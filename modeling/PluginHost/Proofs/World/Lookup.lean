import PluginHost.Proofs.Image.Exported
import PluginHost.Proofs.Loader.Representation
import PluginHost.Proofs.World.Loaders
import PluginHost.Proofs.World.Residency
import PluginHost.Proofs.World.Transparency

/-!
# Looking up names

Names are normalized when plugins are registered and again at every look-up. So a look-up does not tell the
spellings of one name apart, and the spelling that a library exported a name with is one of them.

* `World.Alike`: every look-up treats two spellings alike.
* `World.Exported`: a known plugin and its interfaces are found under the names that its library exports.
* `World.lookups`: both, in every reachable world.
-/

namespace PluginHost

set_option autoImplicit false

open PluginHost.Table

/-! ## Spellings of one name -/

section Congruence

variable {s t : String}

theorem PluginInfo.caster_congr (h : Name.normalize s = Name.normalize t) (info : PluginInfo) :
    info.caster s = info.caster t := by
  rw [caster, caster, h]

theorem Instance.find?_congr (h : Name.normalize s = Name.normalize t) (x : Instance) :
    x.find? s = x.find? t := by
  rw [find?, find?, x.info.caster_congr h]

theorem Handle.query_congr (h : Name.normalize s = Name.normalize t) (handle : Handle) (host : Host) :
    handle.query host s = handle.query host t := by
  unfold query
  cases handle.held with
  | none => rfl
  | some x => simp only [Host.resolve, x.find?_congr h, Instance.castCall, x.info.caster_congr h]

namespace Loader

variable (L : Loader) (host : Host)

theorem instantiate_congr (h : Name.normalize s = Name.normalize t) :
    L.instantiate host s = L.instantiate host t := by
  rw [instantiate, instantiate, h]

theorem libraryOf_congr (h : Name.normalize s = Name.normalize t) : L.libraryOf s = L.libraryOf t := by
  rw [libraryOf, libraryOf, h]

theorem forgetOf_congr (h : Name.normalize s = Name.normalize t) :
    L.forgetOf host s = L.forgetOf host t := by
  rw [forgetOf, forgetOf, L.libraryOf_congr h, h]

theorem implementing_congr (h : Name.normalize s = Name.normalize t) :
    L.implementing s = L.implementing t := by
  have himplements : ∀ info : PluginInfo, info.implements s = info.implements t := fun info => by
    rw [PluginInfo.implements, PluginInfo.implements, info.caster_congr h]
  simp only [implementing, himplements]

end Loader

end Congruence

namespace World

/-- Every look-up answers the same for both spellings and leads to the same world. -/
structure Alike (w : World) (s t : String) : Prop where
  info : ∀ loader L, w.loaders.find? loader = some L → L.pluginInfo s = L.pluginInfo t
  library : ∀ loader L, w.loaders.find? loader = some L → L.libraryOf s = L.libraryOf t
  implementing : ∀ loader L, w.loaders.find? loader = some L → L.implementing s = L.implementing t
  instantiate : ∀ loader goal candidates,
    w.perform (.instantiate loader s goal candidates) = w.perform (.instantiate loader t goal candidates)
  forget : ∀ loader, w.perform (.forgetOf loader s) = w.perform (.forgetOf loader t)
  implements : ∀ loader L n e, w.loaders.find? loader = some L → L.index.find? n = some e →
    e.info.implements s = e.info.implements t ∧ e.info.caster s = e.info.caster t
  provides : ∀ l, w.Refers l → l.provides s = l.provides t
  handle : ∀ name x, w.handles.find? name = some x →
    x.handle.find? s = x.handle.find? t ∧ x.handle.query w.host s = x.handle.query w.host t
  find : ∀ name, w.perform (.find name s) = w.perform (.find name t)
  use : ∀ name arg, w.perform (.queryNamed name s arg) = w.perform (.queryNamed name t arg)
  /-- Interfaces with these names lead to the same capability, also from the slots of a handle. -/
  typed : ∀ name x i j, w.handles.find? name = some x → i.name = s → j.name = t →
    (x.query w.host i).1 = (x.query w.host j).1

theorem alike_of_normalize_eq {w : World} (hw : Reachable w) {s t : String}
    (h : Name.normalize s = Name.normalize t) : w.Alike s t where
  info := fun _ L _ => by rw [Loader.pluginInfo, Loader.pluginInfo, h]
  library := fun _ L _ => L.libraryOf_congr h
  implementing := fun _ L _ => L.implementing_congr h
  instantiate := fun loader goal candidates => by
    simp only [perform, World.instantiate, Loader.instantiate_congr _ _ h]
  forget := fun loader => by
    simp only [perform, forgetOf, Loader.forgetOf_congr _ _ h]
  implements := fun _ _ _ e _ _ => by
    rw [PluginInfo.implements, PluginInfo.implements, e.info.caster_congr h]
    exact ⟨rfl, rfl⟩
  provides := fun l _ => by rw [Library.provides, Library.provides, h]
  handle := fun _ x _ => by
    have hquery := x.handle.query_congr h w.host
    refine ⟨?_, hquery⟩
    rw [← x.handle.query_fst w.host, hquery, x.handle.query_fst]
  find := fun name => by
    simp only [perform, World.find, Handle.query_congr h]
  use := fun name arg => by
    simp only [perform, queryNamed, Handle.query_congr h]
  typed := fun name x i j hx hi hj => by
    have hbound := bound_of_reachable hw name x hx
    rw [hbound.query_fst, hbound.query_fst, hi, hj, ← x.handle.query_fst w.host,
      x.handle.query_congr h, x.handle.query_fst]

/-! ## Exported spellings -/

/-- The entry is found under a name that is exported by the code of its library, its interfaces are found
under the names that stand beside it there, and it has no other interfaces. -/
def Exported (w : World) (L : Loader) (e : IndexEntry) : Prop :=
  ∃ m name names, w.host.mappings.find? e.library.origin.mapping = some m ∧
    (name, names) ∈ m.image.exported ∧ L.pluginInfo name = some e.info ∧
    L.libraryOf name = some e.library.path ∧
    (∀ i ∈ names, e.info.implements i = true ∧ e.info.name ∈ L.implementing i) ∧
    ∀ n ∈ e.info.interfaceNames, ∃ i ∈ names, Name.normalize i = n

theorem represented_of_reachable {w : World} (hw : Reachable w) {loader : String} {L : Loader}
    (hL : w.loaders.find? loader = some L) : L.Represented := by
  have hload : ∀ (L : Loader) h p, L.Represented → (L.load h p).2.1.Represented := by
    intro L h p hr
    rw [Loader.load_loader]
    exact hr.tryLoad h p
  exact loader_of_reachable Loader.represented_withConfig hload (fun L key hr => hr.remove key) hw hL

theorem exported_of_reachable {w : World} (hw : Reachable w) {loader : String} {L : Loader}
    (hL : w.loaders.find? loader = some L) {n : String} {e : IndexEntry}
    (he : L.index.find? n = some e) : w.Exported L e := by
  have hs := sound_of_reachable (fun _ => False) hw
  obtain ⟨m, hm, hoffers⟩ := hs.backed loader L hL n e he
  obtain ⟨name, names, hexported, hname, hnames⟩ := hoffers.exported
  -- an entry stands under the name in it, which is canonical, so every spelling of it leads there
  have hkey : L.index.find? (Name.normalize name) = some e := by
    obtain ⟨k, hk, hkn⟩ := exists_mem_of_find? he
    rw [← hname, (represented_of_reachable hw hL).name (k, e) hk, eq_of_beq hkn]
    exact he
  refine ⟨m, name, names, hm, hexported, ?_, ?_, fun i hi => ?_, fun k hk => ?_⟩
  · rw [Loader.pluginInfo, hkey]
    rfl
  · rw [Loader.libraryOf, hkey]
    rfl
  · have himplements : e.info.implements i = true :=
      PluginInfo.implements_iff.2 ((hnames _).2 (List.mem_map_of_mem hi))
    have hinfo : e.info ∈ L.infos := List.mem_map_of_mem (mem_values_of_find? he)
    refine ⟨himplements, ?_⟩
    rw [Loader.implementing, Ordered.mem_ofList]
    exact List.mem_map_of_mem (List.mem_filter.2 ⟨hinfo, himplements⟩)
  · obtain ⟨i, hi, hik⟩ := List.mem_map.1 ((hnames k).1 hk)
    exact ⟨i, hi, hik⟩

/-! ## Look-ups -/

/-- In every reachable world spellings of one name are looked up alike, and every known plugin is found
under the names that its library exports. -/
theorem lookups {w : World} (hw : Reachable w) :
    (∀ s t, Name.normalize s = Name.normalize t → w.Alike s t) ∧
      ∀ loader L n e, w.loaders.find? loader = some L → L.index.find? n = some e → w.Exported L e :=
  ⟨fun _ _ h => alike_of_normalize_eq hw h, fun _ _ _ _ hL he => exported_of_reachable hw hL he⟩

/-- A library whose authors wrote blanks into the names of its plugin and of an interface. -/
def spaced : World :=
  (start (.withDirectory ["w"])).run
    [.changeFiles (.write ⟨"/w/a.so"⟩ (.library (Image.ofRegistered "a" " shapes "
        [⟨" Square", [Catalog.tick, Catalog.nameBase], .named "Square"⟩]))),
      .newLoader "first" .standard ⟨[]⟩,
      .load "first" ⟨"/w/a.so"⟩,
      .instantiate "first" "shapes::Square" "h" (some ⟨[Catalog.tick]⟩)]

theorem lookups_of_spaced : Reachable spaced ∧ spaced.Alike "oracle::Tick" Catalog.tick.name ∧
    ∃ L e, spaced.loaders.find? "first" = some L ∧ L.index.find? "::shapes::Square" = some e ∧
      e.info.interfaceNames = ["::dynaplug_testing::interfaces::NameBase", "::oracle::Tick"] ∧
      spaced.Exported L e := by
  have hreach : Reachable spaced := (Reachable.start _).run _
  obtain ⟨halike, hexported⟩ := lookups hreach
  have hknown : ((spaced.loaders.find? "first").bind fun L =>
      L.index.find? "::shapes::Square").map (fun e => e.info.interfaceNames) =
        some ["::dynaplug_testing::interfaces::NameBase", "::oracle::Tick"] := by
    decide +kernel
  obtain ⟨e, he, hnames⟩ := Option.map_eq_some_iff.1 hknown
  obtain ⟨L, hL, he⟩ := Option.bind_eq_some_iff.1 he
  exact ⟨hreach, halike _ _ (by decide +kernel), L, e, hL, he, hnames, hexported "first" L _ e hL he⟩

end World

end PluginHost
