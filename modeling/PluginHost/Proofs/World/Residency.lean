import Mathlib.Data.Finset.Card
import PluginHost.Proofs.World.Soundness

/-!
# Residency

A mapping is in memory exactly as long as something refers to a library whose code is in it. What refers
to libraries is spread out: the tables of the loaders, their indices, and the instances that live.

* `World.Lives`: an instance was made and not destroyed yet.
* `World.Refers`: something refers to a library.
* `World.holds_eq_card`: the holds on a mapping are as many as the libraries that are referred to.
-/

namespace PluginHost.World

set_option autoImplicit false

open PluginHost.Table

/-! ## What refers to a library -/

/-- The instance was made and not destroyed yet. -/
def Lives (w : World) (x : Instance) : Prop :=
  ∃ v, w.host.instances.find? x.id = some v ∧ v.body = x

/-- A loader lists the library, a plugin that a loader knows came with it, or an instance that lives
did. -/
inductive Refers (w : World) (l : Library) : Prop where
  | table {name : String} {L : Loader} {p : Path} (hL : w.loaders.find? name = some L)
      (hl : L.libraries.find? p = some l)
  | index {name n : String} {L : Loader} {e : IndexEntry} (hL : w.loaders.find? name = some L)
      (he : L.index.find? n = some e) (hl : e.library = l)
  | instance {x : Instance} (hx : w.Lives x) (hl : x.library = l)

namespace Sound

variable {births : Nat → Prop} {earlier : Host} {w : World} {l : Library} {x : Instance}

theorem mem_references (hs : Sound births earlier w 0) : l ∈ w.references ↔
    ∃ name L, w.loaders.find? name = some L ∧
      ((∃ p, L.libraries.find? p = some l) ∨ ∃ n e, L.index.find? n = some e ∧ e.library = l) := by
  constructor
  · intro hl
    rw [references, referencesOf, Multiset.mem_bind] at hl
    obtain ⟨L, hmem, hl⟩ := hl
    obtain ⟨name, hL⟩ := (mem_bag_iff_find? hs.loaders).1 hmem
    have hc := hs.consistent name L hL
    exact ⟨name, L, hL, (Loader.mem_references_iff hc.libraries hc.index).1 hl⟩
  · rintro ⟨name, L, hL, hl⟩
    have hc := hs.consistent name L hL
    exact mem_referencesOf hL ((Loader.mem_references_iff hc.libraries hc.index).2 hl)

/-- An instance lives exactly as long as something holds it. -/
theorem lives_iff (hs : Sound births earlier w 0) : w.Lives x ↔ x ∈ w.held := by
  have hheld : 0 + w.held = w.held := zero_add _
  constructor
  · rintro ⟨v, hv, rfl⟩
    have hmem := (hs.host.balanced.instances.body_mem hv).1
    rwa [hheld] at hmem
  · intro hx
    exact hs.host.balanced.instances.kept x (by rwa [hheld])

theorem mem_makers (hs : Sound births earlier w 0) :
    l ∈ w.host.makers ↔ ∃ x, w.Lives x ∧ x.library = l := by
  have hd := hs.host.balanced.instances.distinct
  constructor
  · intro hl
    obtain ⟨v, hv, rfl⟩ := Multiset.mem_map.1 hl
    obtain ⟨id, hid⟩ := (mem_bag_iff_find? hd).1 hv
    refine ⟨v.body, ⟨v, ?_, rfl⟩, rfl⟩
    rw [(hs.host.balanced.instances.body_mem hid).2]
    exact hid
  · rintro ⟨_, ⟨v, hv, rfl⟩, rfl⟩
    exact Multiset.mem_map.2 ⟨v, (mem_bag_iff_find? hd).2 ⟨_, hv⟩, rfl⟩

theorem refers_iff (hs : Sound births earlier w 0) : w.Refers l ↔ l ∈ w.references + w.host.makers := by
  rw [Multiset.mem_add, hs.mem_references, hs.mem_makers]
  constructor
  · intro hl
    cases hl with
    | table hL hl => exact .inl ⟨_, _, hL, .inl ⟨_, hl⟩⟩
    | index hL he hl => exact .inl ⟨_, _, hL, .inr ⟨_, _, he, hl⟩⟩
    | «instance» hx hl => exact .inr ⟨_, hx, hl⟩
  · rintro (⟨name, L, hL, ⟨p, hl⟩ | ⟨n, e, he, hl⟩⟩ | ⟨x, hx, hl⟩)
    · exact .table hL hl
    · exact .index hL he hl
    · exact .instance hx hl

/-- The libraries that are referred to are those that the host keeps. -/
theorem mem_libraries_iff_refers (hs : Sound births earlier w 0) :
    l ∈ w.host.libraries ↔ w.Refers l := by
  rw [hs.host.balanced.mem_libraries, hs.refers_iff]

end Sound

/-! ## Holds -/

/-- In every reachable world the holds on a mapping, in its table and by the journal, are as many as the
libraries that are referred to and have their code in it. So the mapping is in memory exactly as long as
there is one. -/
theorem holds_eq_card {w : World} (hw : Reachable w) (m : Nat) :
    ∃ libraries : Finset Library,
      (∀ l, l ∈ libraries ↔ w.Refers l ∧ l.origin.mapping = m) ∧
      (∀ l ∈ libraries, ∀ l' ∈ libraries, l.id = l'.id → l = l') ∧
      w.host.mappings.counter Mapping.holds m = libraries.card ∧
      w.host.journal.count (.held m) = w.host.journal.count (.returned m) + libraries.card ∧
      ((∃ v, w.host.mappings.find? m = some v) ↔ ∃ l, w.Refers l ∧ l.origin.mapping = m) := by
  have hs := sound_of_reachable (fun _ => False) hw
  have hb := hs.host.balanced
  have hmem : ∀ l, l ∈ (w.host.libraries.filter fun l => m = Host.home l).toFinset ↔
      w.Refers l ∧ l.origin.mapping = m := by
    intro l
    rw [Multiset.mem_toFinset, Multiset.mem_filter, hs.mem_libraries_iff_refers]
    exact and_congr_right fun _ => eq_comm
  have hcard : w.host.mappings.counter Mapping.holds m =
      (w.host.libraries.filter fun l => m = Host.home l).toFinset.card := by
    rw [Multiset.toFinset_card_of_nodup (hb.libraries_nodup.filter _), hb.holds_eq m,
      Multiset.count_zero, zero_add]
  refine ⟨_, hmem, ?_, hcard, ?_, ?_⟩
  · intro l hl l' hl' hid
    have hown := hs.refers_iff.1 ((hmem l).1 hl).1
    have hown' := hs.refers_iff.1 ((hmem l').1 hl').1
    exact hb.records.eq_of_key_eq hown hown' hid
  · rw [← hcard]
    exact hs.host.chronicled.holds m
  · constructor
    · rintro ⟨v, hv⟩
      have hpos := hb.mappings.positive m v hv
      have hcounter : w.host.mappings.counter Mapping.holds m = v.holds := counter_of_find? hv
      rw [← hcounter, hcard] at hpos
      obtain ⟨l, hl⟩ := Finset.card_pos.1 hpos
      exact ⟨l, (hmem l).1 hl⟩
    · rintro ⟨l, hl, rfl⟩
      exact hb.resident_of_library (hs.mem_libraries_iff_refers.2 hl)

/-- One loader lists a file, and an instance that it made lives; another loader that listed the same file
was dropped, and its instance lives. -/
def sharing : World :=
  (start (.withDirectory ["w"])).run
    [.changeFiles (.write ⟨"/w/a.so"⟩ (.library Image.dummyPlugins)),
      .newLoader "first" .standard ⟨[]⟩,
      .newLoader "second" .standard ⟨[]⟩,
      .load "first" ⟨"/w/a.so"⟩,
      .load "second" ⟨"/w/a.so"⟩,
      .instantiate "second" "dynaplug_dummy_plugins::DummySinglePlugin" "h" none,
      .dropLoader "second"]

theorem holds_of_sharing : Reachable sharing ∧ sharing.host.mappings.counter Mapping.holds 1 = 2 ∧
    ∃ libraries : Finset Library, libraries.card = 2 ∧
      ∀ l ∈ libraries, sharing.Refers l ∧ l.origin.mapping = 1 := by
  have hreach : Reachable sharing := (Reachable.start _).run _
  have hholds : sharing.host.mappings.counter Mapping.holds 1 = 2 := by decide +kernel
  obtain ⟨libraries, hmem, -, hcard, -⟩ := holds_eq_card hreach 1
  refine ⟨hreach, hholds, libraries, ?_, fun l hl => (hmem l).1 hl⟩
  rw [← hcard, hholds]

end PluginHost.World
