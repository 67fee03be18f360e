import PluginHost.Proofs.FileTree.Removal
import PluginHost.Proofs.Loader.Removal
import PluginHost.Proofs.World.Apart
import PluginHost.Proofs.World.Forgetting
import PluginHost.Proofs.World.Loads
import PluginHost.Proofs.World.Registration
import PluginHost.Proofs.World.Residency

/-!
# Forgetting by path

A path stands for one listed library or for none. Without one nothing changes; otherwise all that the loader
has under the path of that library goes, also what was left there by an earlier load, and nothing else. A
library of which no instance lives is unloaded with that and gives its hold on its mapping back. The mapping
itself stays if the loader has the same file under another path.

* `World.LetGo`: the libraries that are unloaded.
* `World.Removes`: what happens to a library that is forgotten.
* `World.Removal`, `World.removal`: forgetting by path, for every loader of a reachable world and all files.
* `World.not_vacated_of_twinned`: a mapping that stays, since the loader has its file under another path too.
-/

namespace PluginHost.World

set_option autoImplicit false

open PluginHost.Table

/-! ## What is forgotten -/

/-- The loader has the library under the path, and no instance of it lives. -/
def LetGo (w : World) (L : Loader) (t : Path) (l : Library) : Prop :=
  l ∈ L.references ∧ (l.path == t) = true ∧ ∀ x, w.Lives x → x.library ≠ l

/-- The loader is asked to forget `p`, and forgets all that it has under `t`. -/
structure Removes (w : World) (loader : String) (L : Loader) (p t : Path) : Prop where
  answer : (w.perform (.forget loader p)).1 = .flag true
  left : ∃ L', (w.after (.forget loader p)).loaders.find? loader = some L' ∧ L.Without L' t ∧
    ∀ l, l ∈ L'.references ↔ l ∈ L.references ∧ ¬ (l.path == t) = true
  refers : ∀ l, (w.after (.forget loader p)).Refers l ↔ w.Refers l ∧ ¬ w.LetGo L t l
  /-- Every mapping has as many holds less as libraries in it were let go. -/
  holds : ∀ m, ∃ gone : Finset Library, (∀ l, l ∈ gone ↔ w.LetGo L t l ∧ l.origin.mapping = m) ∧
    w.host.mappings.counter Mapping.holds m =
      (w.after (.forget loader p)).host.mappings.counter Mapping.holds m + gone.card
  others : ∀ name, name ≠ loader →
    (w.after (.forget loader p)).loaders.find? name = w.loaders.find? name
  handles : (w.after (.forget loader p)).handles = w.handles
  shares : (w.after (.forget loader p)).shares = w.shares
  files : (w.after (.forget loader p)).host.files = w.host.files
  instances : (w.after (.forget loader p)).host.instances = w.host.instances

/-- The action is a load of the path in one of its two forms, and these plugins are named. -/
inductive Names (w : World) (loader : String) (p : Path) : Action → List String → Prop where
  | load {names : List String} (h : (w.perform (.load loader p)).1 = .names names) :
    Names w loader p (.load loader p) names
  | tryLoad {names : List String} (h : (w.perform (.tryLoad loader p)).1 = .loaded (.ok names)) :
    Names w loader p (.tryLoad loader p) names

/-- What happens when the loader is asked to forget the path. -/
structure Removal (w : World) (loader : String) (L : Loader) (p : Path) : Prop where
  target : ∃ t, ∀ t', L.Targets w.host.files p t' ↔ t' = t
  untouched : L.Targets w.host.files p none →
    w.perform (.forget loader p) = (.flag false, { w with host := w.host.note (.notLoaded p) })
  removes : ∀ t, L.Targets w.host.files p (some t) → w.Removes loader L p t
  /-- Directly after a load that named plugins, none of them is known any more. -/
  afterLoad : ∀ a names, w.Names loader p a names → names ≠ [] →
    ((w.after a).perform (.forget loader p)).1 = .flag true ∧
      ∃ L', ((w.after a).after (.forget loader p)).loaders.find? loader = some L' ∧
        ∀ plugin, Name.normalize plugin ∈ names → L'.pluginInfo plugin = none
  /-- A library that is listed under the canonical path of its file goes by it also when the file is gone. -/
  afterRemoval : w.host.files.WellFormed → L.Lists p → w.host.files.canonical? p = some p →
    (∃ f, w.host.files.file? p = some f) → (w.after (.changeFiles (.remove p))).Removes loader L p p

section

variable {w : World} {loader : String} {L : Loader} {p t : Path}

/-! ## Performing -/

theorem perform_forget (hL : w.loaders.find? loader = some L) (p : Path) :
    w.perform (.forget loader p) = (.flag (L.forget w.host p).1,
      { w with
        host := (L.forget w.host p).2.2
        loaders := w.loaders.put loader (L.forget w.host p).2.1 }) := by
  simp only [perform, Answer.ofOption, forget, onLoader, hL]

/-- Both forms of a load that names plugins do the same. -/
theorem load_of_names (hL : w.loaders.find? loader = some L) {a : Action} {names : List String}
    (hn : w.Names loader p a names) :
    (L.load w.host p).1 = names ∧ (w.after a).loaders.find? loader = some (L.load w.host p).2.1 ∧
      (w.after a).host = (L.load w.host p).2.2 := by
  cases hn with
  | load h =>
    rw [after]
    rw [perform_load hL] at h ⊢
    exact ⟨Answer.names.inj h, find?_put_self _ _ _, rfl⟩
  | tryLoad h =>
    rw [perform_tryLoad hL] at h
    rw [find?_after_tryLoad hL, host_after_tryLoad hL, Loader.load_of_ok (Answer.loaded.inj h)]
    exact ⟨rfl, rfl, rfl⟩

theorem find?_after_forget (hL : w.loaders.find? loader = some L)
    (hkey : L.listedKey w.host.files p = some t) (name : String) :
    (w.after (.forget loader p)).loaders.find? name =
      if loader = name then some (L.remove t) else w.loaders.find? name := by
  have hloader := (Loader.forget_of_listedKey (h := w.host) hkey).2
  rw [after, perform_forget hL, hloader]
  simp [find?_put]

theorem lives_after_forget (hL : w.loaders.find? loader = some L) (p : Path) (x : Instance) :
    (w.after (.forget loader p)).Lives x ↔ w.Lives x := by
  rw [Lives, Lives, after, perform_forget hL]
  simp only [Loader.instances_forget]

/-! ## References and holds -/

namespace Sound

variable {births : Nat → Prop} {earlier : Host} {l : Library}

theorem withFiles (hs : Sound births earlier w 0) (files : FileTree) :
    Sound births earlier (w.withFiles files) 0 := hs.hosted (hs.restart.host.withFiles files)

/-- A loader refers to the library, or an instance of it lives. -/
theorem refers_iff_exists (hs : Sound births earlier w 0) : w.Refers l ↔
    (∃ name L, w.loaders.find? name = some L ∧ l ∈ L.references) ∨ ∃ x, w.Lives x ∧ x.library = l := by
  have hrefs : ∀ {name L}, w.loaders.find? name = some L → (l ∈ L.references ↔
      (∃ q, L.libraries.find? q = some l) ∨ ∃ n e, L.index.find? n = some e ∧ e.library = l) := fun hL =>
    Loader.mem_references_iff (hs.consistent _ _ hL).libraries (hs.consistent _ _ hL).index
  constructor
  · intro hl
    cases hl with
    | table hL hl => exact .inl ⟨_, _, hL, (hrefs hL).2 (.inl ⟨_, hl⟩)⟩
    | index hL he hl => exact .inl ⟨_, _, hL, (hrefs hL).2 (.inr ⟨_, _, he, hl⟩)⟩
    | «instance» hx hl => exact .inr ⟨_, hx, hl⟩
  · rintro (⟨name, L, hL, hl⟩ | ⟨x, hx, hl⟩)
    · rcases (hrefs hL).1 hl with ⟨q, hq⟩ | ⟨n, e, he, hl⟩
      · exact .table hL hq
      · exact .index hL he hl
    · exact .instance hx hl

theorem exists_homed (hs : Sound births earlier w 0) (m : Nat) :
    ∃ libraries : Finset Library, (∀ l, l ∈ libraries ↔ w.Refers l ∧ l.origin.mapping = m) ∧
      w.host.mappings.counter Mapping.holds m = libraries.card := by
  have hb := hs.host.balanced
  refine ⟨(w.host.libraries.filter fun l => m = Host.home l).toFinset, fun l => ?_, ?_⟩
  · rw [Multiset.mem_toFinset, Multiset.mem_filter, hs.mem_libraries_iff_refers]
    exact and_congr_right fun _ => eq_comm
  · rw [Multiset.toFinset_card_of_nodup (hb.libraries_nodup.filter _), hb.holds_eq m, Multiset.count_zero,
      Nat.zero_add]

end Sound

/-- What was referred to still is, unless it was let go. -/
theorem refers_after_forget (hw : Reachable w) (files : FileTree) (hL : w.loaders.find? loader = some L)
    (hkey : L.listedKey files p = some t) (l : Library) :
    ((w.withFiles files).after (.forget loader p)).Refers l ↔
      (w.withFiles files).Refers l ∧ ¬ (w.withFiles files).LetGo L t l := by
  have hs := (sound_of_reachable (fun _ => False) hw).withFiles files
  have hs' := hs.after (.forget loader p) fun _ hbears => hbears
  have hc := hs.consistent loader L hL
  have hfind := find?_after_forget (w := w.withFiles files) hL hkey
  have hlives := lives_after_forget (w := w.withFiles files) hL p
  have hmem := fun l => hc.mem_references_remove_iff t (l := l)
  rw [hs'.refers_iff_exists, hs.refers_iff_exists]
  constructor
  · rintro (⟨name, L', hL', hl⟩ | ⟨x, hx, rfl⟩)
    · rw [hfind] at hL'
      by_cases hname : loader = name
      · rw [if_pos hname, Option.some.injEq] at hL'
        subst hL'
        obtain ⟨hold, hother⟩ := (hmem l).1 hl
        exact ⟨.inl ⟨loader, L, hL, hold⟩, fun hgone => hother hgone.2.1⟩
      · rw [if_neg hname] at hL'
        -- no other loader has the same library
        exact ⟨.inl ⟨name, L', hL', hl⟩, fun hgone => ids_ne_of_reachable hw hname hL hL' hgone.1 hl rfl⟩
    · have hx' := (hlives x).1 hx
      exact ⟨.inr ⟨x, hx', rfl⟩, fun hgone => hgone.2.2 x hx' rfl⟩
  · rintro ⟨⟨name, L', hL', hl⟩ | ⟨x, hx, rfl⟩, hkept⟩
    · by_cases hname : loader = name
      · subst hname
        obtain rfl : L = L' := Option.some.inj (hL.symm.trans hL')
        by_cases hpath : (l.path == t) = true
        · by_cases hlive : ∃ x, (w.withFiles files).Lives x ∧ x.library = l
          · obtain ⟨x, hx, hxl⟩ := hlive
            exact .inr ⟨x, (hlives x).2 hx, hxl⟩
          · exact absurd ⟨hl, hpath, fun x hx hxl => hlive ⟨x, hx, hxl⟩⟩ hkept
        · exact .inl ⟨loader, L.remove t, by rw [hfind, if_pos rfl], (hmem l).2 ⟨hl, hpath⟩⟩
      · exact .inl ⟨name, L', by rw [hfind, if_neg hname]; exact hL', hl⟩
    · exact .inr ⟨x, (hlives x).2 hx, rfl⟩

theorem holds_after_forget (hw : Reachable w) (files : FileTree) (hL : w.loaders.find? loader = some L)
    (hkey : L.listedKey files p = some t) (m : Nat) :
    ∃ gone : Finset Library, (∀ l, l ∈ gone ↔ (w.withFiles files).LetGo L t l ∧ l.origin.mapping = m) ∧
      (w.withFiles files).host.mappings.counter Mapping.holds m =
        ((w.withFiles files).after (.forget loader p)).host.mappings.counter Mapping.holds m + gone.card := by
  have hs := (sound_of_reachable (fun _ => False) hw).withFiles files
  have hs' := hs.after (.forget loader p) fun _ hbears => hbears
  have hrefers := refers_after_forget hw files hL hkey
  obtain ⟨before, hbefore, hcount⟩ := hs.exists_homed m
  obtain ⟨later, hlater, hcount'⟩ := hs'.exists_homed m
  have hsubset : later ⊆ before := by
    intro l hl
    obtain ⟨hr, hm⟩ := (hlater l).1 hl
    exact (hbefore l).2 ⟨((hrefers l).1 hr).1, hm⟩
  refine ⟨before \ later, fun l => ?_, ?_⟩
  · rw [Finset.mem_sdiff, hbefore, hlater, hrefers]
    constructor
    · rintro ⟨⟨hr, hm⟩, hnot⟩
      exact ⟨Classical.byContradiction fun hkept => hnot ⟨⟨hr, hkept⟩, hm⟩, hm⟩
    · rintro ⟨hgone, hm⟩
      exact ⟨⟨hs.refers_iff_exists.2 (.inl ⟨loader, L, hL, hgone.1⟩), hm⟩, fun hkept => hkept.1.2 hgone⟩
  · rw [hcount, hcount', ← Finset.card_sdiff_add_card_eq_card hsubset, Nat.add_comm]

theorem removes_of_listedKey (hw : Reachable w) (files : FileTree) (hL : w.loaders.find? loader = some L)
    (hkey : L.listedKey files p = some t) : (w.withFiles files).Removes loader L p t := by
  have hc := (sound_of_reachable (fun _ => False) hw).consistent loader L hL
  have hperform := perform_forget (w := w.withFiles files) hL p
  have hfind := find?_after_forget (w := w.withFiles files) hL hkey
  have hanswer := (Loader.forget_of_listedKey (h := (w.withFiles files).host) hkey).1
  constructor
  case answer => rw [hperform, hanswer]
  case left =>
    refine ⟨L.remove t, ?_, hc.without_remove t, fun l => hc.mem_references_remove_iff t⟩
    rw [hfind, if_pos rfl]
  case refers => exact refers_after_forget hw files hL hkey
  case holds => exact holds_after_forget hw files hL hkey
  case others =>
    intro name hname
    rw [hfind, if_neg (Ne.symm hname)]
  case handles => rw [after, hperform]
  case shares => rw [after, hperform]
  case files =>
    rw [after, hperform]
    exact (L.evolves_forget _ p).files
  case instances =>
    rw [after, hperform]
    exact L.instances_forget _ p

/-- In every reachable world and with all files, a path is forgotten in this way. -/
theorem removal (hw : Reachable w) (files : FileTree) (hL : w.loaders.find? loader = some L) (p : Path) :
    (w.withFiles files).Removal loader L p := by
  have hc := (sound_of_reachable (fun _ => False) hw).consistent loader L hL
  have hL' : (w.withFiles files).loaders.find? loader = some L := hL
  constructor
  case target => exact ⟨L.listedKey files p, fun t' => hc.targets_iff.trans eq_comm⟩
  case untouched =>
    intro ht
    have hkey : L.listedKey (w.withFiles files).host.files p = none := hc.targets_iff.1 ht
    have heq : L.forget (w.withFiles files).host p =
        (false, L, (w.withFiles files).host.note (.notLoaded p)) := by simp only [Loader.forget, hkey]
    rw [perform_forget hL', heq, put_of_find? hL']
  case removes => exact fun t ht => removes_of_listedKey hw files hL (hc.targets_iff.1 ht)
  case afterLoad =>
    intro a names hnames hsome
    obtain ⟨rfl, hloader, hhost⟩ := load_of_names hL' hnames
    obtain ⟨hanswer, hunknown⟩ := hc.forget_after_load hsome
    have hforget := perform_forget hloader p
    rw [hhost] at hforget
    have hleft : (((w.withFiles files).after a).after (.forget loader p)).loaders.find? loader =
        some ((L.load (w.withFiles files).host p).2.1.forget (L.load (w.withFiles files).host p).2.2 p).2.1 := by
      rw [after, hforget]
      exact find?_put_self _ _ _
    refine ⟨by rw [hforget, hanswer], _, hleft, fun plugin hplugin => ?_⟩
    rw [Loader.pluginInfo, hunknown _ hplugin, Option.map_none]
  case afterRemoval =>
    rintro hform hlists hcanonical ⟨f, hf⟩
    have hgone : (files.remove p).canonical? p = none := hform.canonical_remove hcanonical hf
    have hkey : L.listedKey (files.remove p) p = some p := by
      refine hc.targets_iff.1 ?_
      have hsame : ((files.remove p).canonical? p).getD p = p := by rw [hgone, Option.getD_none]
      have hcurrent : L.Targets (files.remove p) p (some (((files.remove p).canonical? p).getD p)) :=
        .current (by rwa [hsame])
      rwa [hsame] at hcurrent
    exact removes_of_listedKey hw (files.remove p) hL hkey

end

/-- A file was loaded with two plugins, and was then replaced by one with only the first of them, which was
loaded as well. -/
def layered : World :=
  (start (.withDirectory ["w"])).run
    [.changeFiles (.write ⟨"/w/a.so"⟩ (.library Image.dummyPlugins)),
      .newLoader "first" .standard ⟨[]⟩,
      .load "first" ⟨"/w/a.so"⟩,
      .changeFiles (.write ⟨"/w/a.so"⟩ (.library (Image.ofRegistered "b" "dynaplug_dummy_plugins"
        [⟨"DummySinglePlugin", [Catalog.nameBase], .named "Single"⟩]))),
      .load "first" ⟨"/w/./a.so"⟩]

/-- The path stands for itself after the file was removed, and both libraries that were loaded from it go. -/
theorem removal_of_layered : Reachable layered ∧
    ∃ L, layered.loaders.find? "first" = some L ∧
      (layered.withFiles (layered.host.files.remove ⟨"/w/a.so"⟩)).Removal "first" L ⟨"/w/a.so"⟩ ∧
      L.Targets (layered.host.files.remove ⟨"/w/a.so"⟩) ⟨"/w/a.so"⟩ (some ⟨"/w/a.so"⟩) ∧
      L.index.map (fun e => (e.2.library.id, e.2.library.path)) = [(4, ⟨"/w/a.so"⟩), (2, ⟨"/w/a.so"⟩)] := by
  have hreach : Reachable layered := (Reachable.start _).run _
  have hfacts : (layered.loaders.find? "first").map (fun L =>
      (L.listedKey (layered.host.files.remove ⟨"/w/a.so"⟩) ⟨"/w/a.so"⟩,
        L.index.map fun e => (e.2.library.id, e.2.library.path))) =
      some (some ⟨"/w/a.so"⟩, [(4, ⟨"/w/a.so"⟩), (2, ⟨"/w/a.so"⟩)]) := by decide +kernel
  obtain ⟨L, hL, hboth⟩ := Option.map_eq_some_iff.1 hfacts
  obtain ⟨hkey, hindex⟩ := Prod.mk.inj hboth
  have hc := (sound_of_reachable (fun _ => False) hreach).consistent "first" L hL
  exact ⟨hreach, L, hL, removal hreach _ hL _, hc.targets_iff.2 hkey, hindex⟩

/-! ## One file under two paths -/

/-- When a library goes of which no instance lives, the loader has no library in its mapping any more. -/
def Vacated (w : World) (loader : String) (p : Path) : Prop :=
  ∀ L t l, w.loaders.find? loader = some L → L.Targets w.host.files p (some t) → w.LetGo L t l →
    ∀ L', (w.after (.forget loader p)).loaders.find? loader = some L' →
      ∀ l' ∈ L'.references, l'.origin.mapping ≠ l.origin.mapping

/-- A loader has loaded one file under two names, and there are no instances. -/
def twinned : World :=
  (start (.withDirectory ["w"])).run
    [.changeFiles (.write ⟨"/w/a.so"⟩ (.library Image.dummyPlugins)),
      .changeFiles (.makeAlias ⟨"/w/b.so"⟩ ⟨"/w/a.so"⟩),
      .newLoader "first" .standard ⟨[]⟩,
      .load "first" ⟨"/w/a.so"⟩,
      .load "first" ⟨"/w/b.so"⟩]

/-- The library under the first name goes, but its mapping stays for the one under the second name. -/
theorem not_vacated_of_twinned : Reachable twinned ∧ ¬ twinned.Vacated "first" ⟨"/w/a.so"⟩ ∧
    (twinned.after (.forget "first" ⟨"/w/a.so"⟩)).host.resident = ["/w/a.so"] := by
  have hreach : Reachable twinned := (Reachable.start _).run _
  refine ⟨hreach, fun hvacated => ?_, by decide +kernel⟩
  have hfacts : (twinned.loaders.find? "first").map (fun L =>
      (L.listedKey twinned.host.files ⟨"/w/a.so"⟩,
        (L.libraries.find? ⟨"/w/a.so"⟩).map (fun l => (l.path, l.origin.mapping)),
        (L.libraries.find? ⟨"/w/b.so"⟩).map fun l => (l.path, l.origin.mapping))) =
      some (some ⟨"/w/a.so"⟩, some (⟨"/w/a.so"⟩, 1), some (⟨"/w/b.so"⟩, 1)) := by decide +kernel
  have hnone : twinned.host.instances.length = 0 := by decide +kernel
  obtain ⟨L, hL, hall⟩ := Option.map_eq_some_iff.1 hfacts
  simp only [Prod.mk.injEq, Option.map_eq_some_iff] at hall
  obtain ⟨hkey, ⟨l, hl, hpath, hmapping⟩, l', hl', hpath', hmapping'⟩ := hall
  have hc := (sound_of_reachable (fun _ => False) hreach).consistent "first" L hL
  have hgone : twinned.LetGo L ⟨"/w/a.so"⟩ l := by
    refine ⟨(Loader.mem_references_iff hc.libraries hc.index).2 (.inl ⟨_, hl⟩), by rw [hpath]; rfl, ?_⟩
    rintro x ⟨v, hv, -⟩
    rw [List.length_eq_zero_iff.1 hnone] at hv
    cases hv
  have hkept : l' ∈ (L.remove ⟨"/w/a.so"⟩).references := by
    refine (hc.mem_references_remove_iff _).2
      ⟨(Loader.mem_references_iff hc.libraries hc.index).2 (.inl ⟨_, hl'⟩), ?_⟩
    rw [hpath']
    decide
  have hafter : (twinned.after (.forget "first" ⟨"/w/a.so"⟩)).loaders.find? "first" =
      some (L.remove ⟨"/w/a.so"⟩) := by rw [find?_after_forget hL hkey, if_pos rfl]
  exact hvacated L _ l hL (hc.targets_iff.2 hkey) hgone _ hafter l' hkept (hmapping'.trans hmapping.symm)

end PluginHost.World
