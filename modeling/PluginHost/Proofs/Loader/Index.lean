import PluginHost.Loader.Forgetting
import PluginHost.Proofs.Loader.Outcome

/-!
# The index and the table of a loader

A known plugin was registered with its library, and a library is listed under the path of that library; it
is the same library if the plugin was registered with it as well. Loading and forgetting keep this whatever
the host is.

* `Loader.find?_indexed`: what is in the index after plugins are put into it.
* `Loader.Consistent`: how the index and the table agree.
-/

namespace PluginHost.Loader

set_option autoImplicit false

open PluginHost.Table

/-! ## Entries of the index -/

theorem distinct_indexed {library : Library} {index : Table String IndexEntry}
    (hd : index.Distinct) (infos : List PluginInfo) : (indexed library index infos).Distinct := by
  induction infos generalizing index with
  | nil => exact hd
  | cons info infos ih => exact ih (hd.put _ _)

/-- A known plugin is one of those that were put into the index, or it was known before and no plugin
of its name was put there. -/
theorem find?_indexed {library : Library} {index : Table String IndexEntry} {infos : List PluginInfo}
    {n : String} {e : IndexEntry} (he : (indexed library index infos).find? n = some e) :
    (e.info ∈ infos ∧ e.info.name = n ∧ e.library = library) ∨
      ((∀ info ∈ infos, info.name ≠ n) ∧ index.find? n = some e) := by
  induction infos generalizing index with
  | nil => exact .inr ⟨by simp, he⟩
  | cons info infos ih =>
    rcases ih he with ⟨hmem, hname, hlib⟩ | ⟨hnone, hput⟩
    · exact .inl ⟨List.mem_cons_of_mem info hmem, hname, hlib⟩
    · rw [find?_put] at hput
      by_cases hn : info.name = n
      · rw [if_pos (by simp [hn]), Option.some.injEq] at hput
        subst hput
        exact .inl ⟨List.mem_cons_self, hn, rfl⟩
      · rw [if_neg (by simp [hn])] at hput
        refine .inr ⟨fun other hother => ?_, hput⟩
        rcases List.mem_cons.1 hother with rfl | hother
        · exact hn
        · exact hnone other hother

/-- A plugin that is not among those put into the index is known as before. -/
theorem find?_indexed_of_ne {library : Library} {infos : List PluginInfo} {n : String}
    (hn : ∀ info ∈ infos, info.name ≠ n) (index : Table String IndexEntry) :
    (indexed library index infos).find? n = index.find? n := by
  induction infos generalizing index with
  | nil => rfl
  | cons info infos ih =>
    have hstep := ih (fun other hother => hn other (List.mem_cons_of_mem info hother))
      (index.put info.name ⟨info, library⟩)
    exact hstep.trans (find?_put_of_ne _ _ (hn info List.mem_cons_self).symm)

/-- A plugin that is put into the index is known with its library. -/
theorem exists_find?_indexed {library : Library} {infos : List PluginInfo} {n : String}
    (hn : ∃ info ∈ infos, info.name = n) (index : Table String IndexEntry) :
    ∃ e, (indexed library index infos).find? n = some e ∧ e.library = library := by
  induction infos generalizing index with
  | nil => simp at hn
  | cons info infos ih =>
    by_cases hrest : ∃ other ∈ infos, other.name = n
    · exact ih hrest _
    · obtain ⟨other, hother, hname⟩ := hn
      rcases List.mem_cons.1 hother with rfl | hother
      · have hlast : ∀ info ∈ infos, info.name ≠ n := fun i hi hname' => hrest ⟨i, hi, hname'⟩
        refine ⟨⟨other, library⟩, (find?_indexed_of_ne hlast _).trans ?_, rfl⟩
        subst hname
        exact find?_put_self _ _ _
      · exact absurd ⟨other, hother, hname⟩ hrest

/-! ## What forgetting does to a loader -/

theorem find?_index_remove {L : Loader} (hd : L.index.Distinct) {key : Path} {n : String}
    {e : IndexEntry} (he : (L.remove key).index.find? n = some e) :
    L.index.find? n = some e ∧ ¬ (key == e.library.path) = true := by
  have hfilter := find?_filter hd (fun e => !(e.library.path == key)) n
  simp only [Loader.remove] at he
  rw [hfilter, Option.filter_eq_some_iff] at he
  refine ⟨he.1, fun hkey => ?_⟩
  have hkey' : (e.library.path == key) = true := BEq.symm hkey
  simp [hkey'] at he

theorem find?_index_of_removed {L L' : Loader} (hd : L.index.Distinct)
    (heq : L' = L ∨ ∃ key, L' = L.remove key) {n : String} {e : IndexEntry}
    (he : L'.index.find? n = some e) : L.index.find? n = some e := by
  rcases heq with rfl | ⟨key, rfl⟩
  · exact he
  · exact (find?_index_remove hd he).1

theorem forget_loader (L : Loader) (h : Host) (p : Path) :
    (L.forget h p).2.1 = L ∨ ∃ key, (L.forget h p).2.1 = L.remove key := by
  unfold forget
  split
  · exact .inl rfl
  · next key _ =>
    split
    · exact .inl rfl
    · exact .inr ⟨key, rfl⟩

theorem forgetOf_loader (L : Loader) (h : Host) (plugin : String) :
    (L.forgetOf h plugin).2.1 = L ∨ ∃ key, (L.forgetOf h plugin).2.1 = L.remove key := by
  unfold forgetOf
  split
  · exact L.forget_loader h _
  · exact .inl rfl

/-! ## Agreement -/

/-- Every known plugin was registered with its library; a library is listed under the path of that
library, and it is that library if the plugin was registered with it. -/
structure Consistent (L : Loader) : Prop where
  libraries : L.libraries.Distinct
  index : L.index.Distinct
  named : ∀ n e, L.index.find? n = some e → n ∈ e.library.plugins
  filed : ∀ p l, L.libraries.find? p = some l → (l.path == p) = true
  listed : ∀ n e, L.index.find? n = some e → ∃ l, L.libraries.find? e.library.path = some l
  latest : ∀ n e l, L.index.find? n = some e → L.libraries.find? e.library.path = some l →
    n ∈ l.plugins → l = e.library

theorem consistent_withConfig (config : Config) : (withConfig config).Consistent where
  libraries := distinct_nil
  index := distinct_nil
  named := by intro n e he; simp [withConfig] at he
  filed := by intro p l hl; simp [withConfig] at hl
  listed := by intro n e he; simp [withConfig] at he
  latest := by intro n e l he; simp [withConfig] at he

namespace Consistent

variable {L : Loader}

theorem registered (hc : L.Consistent) {library : Library} {infos : List PluginInfo}
    (hp : ∀ n, n ∈ library.plugins ↔ ∃ info ∈ infos, info.name = n) :
    (L.registered library infos).Consistent where
  libraries := hc.libraries.put _ _
  index := distinct_indexed hc.index infos
  named := by
    intro n e he
    rcases find?_indexed he with ⟨hmem, hname, hlib⟩ | ⟨-, hold⟩
    · rw [hlib]
      exact (hp n).2 ⟨e.info, hmem, hname⟩
    · exact hc.named n e hold
  filed := by
    intro p l hl
    simp only [Loader.registered, find?_put] at hl
    split at hl
    · next hkey =>
      rw [← Option.some.inj hl]
      exact hkey
    · exact hc.filed p l hl
  listed := by
    intro n e he
    simp only [Loader.registered, find?_put]
    split
    · exact ⟨library, rfl⟩
    · next hkey =>
      rcases find?_indexed he with ⟨-, -, hlib⟩ | ⟨-, hold⟩
      · rw [hlib] at hkey
        exact absurd BEq.rfl hkey
      · exact hc.listed n e hold
  latest := by
    intro n e l he hl hn
    simp only [Loader.registered, find?_put] at hl
    rcases find?_indexed he with ⟨-, -, hlib⟩ | ⟨hnone, hold⟩
    · rw [hlib, if_pos BEq.rfl, Option.some.injEq] at hl
      rw [hlib, hl]
    · split at hl
      · -- the name is not among those of the new library
        rw [← Option.some.inj hl] at hn
        obtain ⟨info, hinfo, hname⟩ := (hp n).1 hn
        exact absurd hname (hnone info hinfo)
      · exact hc.latest n e l hold hl hn

theorem tryLoad (hc : L.Consistent) (h : Host) (p : Path) : (L.tryLoad h p).2.1.Consistent := by
  rcases L.tryLoad_loader h p with ⟨-, heq⟩ | ⟨_, _, ⟨id, o, rfl⟩, -, -, heq⟩
  · rw [heq]; exact hc
  · rw [heq]; exact hc.registered fun _ => mem_plugins_record

theorem load (hc : L.Consistent) (h : Host) (p : Path) : (L.load h p).2.1.Consistent := by
  rw [load_loader]
  exact hc.tryLoad h p

theorem loadAll (hc : L.Consistent) (h : Host) (paths : List Path) :
    (L.loadAll h paths).2.1.Consistent :=
  loadAll_induction (motive := fun L _ => L.Consistent) paths hc fun _ h p hc => hc.load h p

theorem remove (hc : L.Consistent) (key : Path) : (L.remove key).Consistent := by
  have hstay : ∀ n e, (L.remove key).index.find? n = some e →
      L.index.find? n = some e ∧ ¬ (key == e.library.path) = true :=
    fun _ _ he => find?_index_remove hc.index he
  refine ⟨hc.libraries.erase key, hc.index.filter _, ?_, ?_, ?_, ?_⟩
  · exact fun n e he => hc.named n e (hstay n e he).1
  · intro p l hl
    simp only [Loader.remove, find?_erase] at hl
    split at hl
    · simp at hl
    · exact hc.filed p l hl
  · intro n e he
    simp only [Loader.remove, find?_erase, (hstay n e he).2]
    exact hc.listed n e (hstay n e he).1
  · intro n e l he hl hn
    simp only [Loader.remove, find?_erase, (hstay n e he).2] at hl
    exact hc.latest n e l (hstay n e he).1 hl hn

theorem forget (hc : L.Consistent) (h : Host) (p : Path) : (L.forget h p).2.1.Consistent := by
  rcases L.forget_loader h p with heq | ⟨key, heq⟩
  · rw [heq]; exact hc
  · rw [heq]; exact hc.remove key

theorem forgetOf (hc : L.Consistent) (h : Host) (plugin : String) :
    (L.forgetOf h plugin).2.1.Consistent := by
  rcases L.forgetOf_loader h plugin with heq | ⟨key, heq⟩
  · rw [heq]; exact hc
  · rw [heq]; exact hc.remove key

end Consistent

end PluginHost.Loader
