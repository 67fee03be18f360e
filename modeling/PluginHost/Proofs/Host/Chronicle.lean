import PluginHost.Proofs.Host.Balance
import PluginHost.Proofs.Image.Offers
import PluginHost.Proofs.Journal.Lawful

/-!
# The journal of a host

The journal of a host is lawful, and it agrees with the tables: it tells the holds on every mapping and
which instances live. A host that comes after another has the journal of the other behind its own, keeps
the images of its mappings, and deletes an instance exactly when it ends it, if the plugin has a deleter.

* `Host.Backs`: the library of a plugin is in memory with the image that offers the plugin.
* `Host.Chronicled`: the journal and the tables agree.
* `Host.Follows`: what one host has of an earlier one.
* `Host.Sound`: a host in balance, with a journal that agrees with it, that comes after another.
-/

namespace PluginHost

set_option autoImplicit false

open PluginHost.Table PluginHost.Journal

namespace Host

/-! ## The journal and the tables -/

/-- The image that a library was read from is in memory and offers the plugin. -/
def Backs (h : Host) (info : PluginInfo) (l : Library) : Prop :=
  ∃ v, h.mappings.find? (home l) = some v ∧ v.image.Offers info

/-- The journal is lawful and agrees with the tables of the host. -/
structure Chronicled (h : Host) : Prop where
  lawful : Lawful h.journal
  holds : ∀ m, h.journal.count (.held m) =
    h.journal.count (.returned m) + h.mappings.counter Mapping.holds m
  born : ∀ id v, h.instances.find? id = some v →
    Created h.journal v.body.library.origin v.body.tag id ∧ deletions h.journal id = 0
  unborn : ∀ o tag id, Created h.journal o tag id → id < h.fresh
  backed : ∀ id v, h.instances.find? id = some v → h.Backs v.body.info v.body.library

theorem chronicled_start (files : FileTree) : (start files).Chronicled where
  lawful := trivial
  holds := by intro m; simp [start, counter]
  born := by intro id v hv; simp [start] at hv
  unborn := by intro o tag id hc; simp [Created, start] at hc
  backed := by intro id v hv; simp [start] at hv

/-! ## One host after another -/

/-- How many deletions an instance has coming when it is there before and no longer after. -/
def ending : Option Living → Option Living → Nat
  | some v, none => if v.body.info.deleter = .plugin then 1 else 0
  | _, _ => 0

/-- The host `h` comes after the host `earlier`, and the instances made in between are among
`births`. -/
structure Follows (births : Nat → Prop) (earlier h : Host) : Prop where
  journal : earlier.journal <:+ h.journal
  made : ∀ o tag id, Created h.journal o tag id → Created earlier.journal o tag id ∨ births id
  fresh : earlier.fresh ≤ h.fresh
  mapped : ∀ id v, id < earlier.fresh → h.mappings.find? id = some v →
    ∃ v₀, earlier.mappings.find? id = some v₀ ∧ v.image = v₀.image
  survived : ∀ id v, id < earlier.fresh → h.instances.find? id = some v →
    ∃ v₀, earlier.instances.find? id = some v₀ ∧ v.body = v₀.body
  ended : ∀ id, id < earlier.fresh → deletions h.journal id =
    deletions earlier.journal id + ending (earlier.instances.find? id) (h.instances.find? id)

theorem ending_self (v : Option Living) : ending v v = 0 := by cases v <;> rfl

/-- Over a moment between, endings add up, for what is gone stays gone. -/
theorem ending_add {before between after : Option Living}
    (h₁ : ∀ v, between = some v → ∃ v₀, before = some v₀ ∧ v.body = v₀.body)
    (h₂ : ∀ v, after = some v → ∃ v₀, between = some v₀ ∧ v.body = v₀.body) :
    ending before between + ending between after = ending before after := by
  cases hm : between with
  | none =>
    cases ha : after with
    | none => simp [ending]
    | some v =>
      obtain ⟨v₀, hv₀, -⟩ := h₂ v ha
      rw [hm] at hv₀
      simp at hv₀
  | some v =>
    obtain ⟨v₀, hv₀, hbody⟩ := h₁ v hm
    cases ha : after <;> simp [ending, hv₀, hbody]

theorem Follows.refl (births : Nat → Prop) (h : Host) : Follows births h h where
  journal := List.suffix_refl _
  made := fun _ _ _ hc => .inl hc
  fresh := Nat.le_refl _
  mapped := fun _ v _ hv => ⟨v, hv, rfl⟩
  survived := fun _ v _ hv => ⟨v, hv, rfl⟩
  ended := by intro id _; rw [ending_self, Nat.add_zero]

theorem Follows.trans {births : Nat → Prop} {a b c : Host} (hab : Follows births a b)
    (hbc : Follows births b c) : Follows births a c where
  journal := hab.journal.trans hbc.journal
  made := by
    intro o tag id hc
    rcases hbc.made o tag id hc with hc | hbirth
    · exact hab.made o tag id hc
    · exact .inr hbirth
  fresh := Nat.le_trans hab.fresh hbc.fresh
  mapped := by
    intro id v hid hv
    obtain ⟨v₁, hv₁, h₁⟩ := hbc.mapped id v (Nat.lt_of_lt_of_le hid hab.fresh) hv
    obtain ⟨v₀, hv₀, h₀⟩ := hab.mapped id v₁ hid hv₁
    exact ⟨v₀, hv₀, h₁.trans h₀⟩
  survived := by
    intro id v hid hv
    obtain ⟨v₁, hv₁, h₁⟩ := hbc.survived id v (Nat.lt_of_lt_of_le hid hab.fresh) hv
    obtain ⟨v₀, hv₀, h₀⟩ := hab.survived id v₁ hid hv₁
    exact ⟨v₀, hv₀, h₁.trans h₀⟩
  ended := by
    intro id hid
    have hid' := Nat.lt_of_lt_of_le hid hab.fresh
    have hadd := ending_add (fun v hv => hab.survived id v hid hv)
      (fun v hv => hbc.survived id v hid' hv)
    rw [hbc.ended id hid', hab.ended id hid, Nat.add_assoc, hadd]

/-- What backed a plugin backs it later on, if the library is still in memory. -/
theorem Backs.of_follows {births : Nat → Prop} {h h' : Host} {info : PluginInfo} {l : Library}
    (hb : h.Backs info l) (hf : Follows births h h') (hlt : home l < h.fresh) {v' : Mapping}
    (hv' : h'.mappings.find? (home l) = some v') : h'.Backs info l := by
  obtain ⟨v, hv, hoffers⟩ := hb
  obtain ⟨v₀, hv₀, himage⟩ := hf.mapped (home l) v' hlt hv'
  rw [hv, Option.some.injEq] at hv₀
  refine ⟨v', hv', ?_⟩
  rw [himage, ← hv₀]
  exact hoffers

/-! ## Sound hosts -/

/-- The host is in balance with three bags of owners, its journal agrees with it, and it comes after
`earlier`. -/
structure Sound (births : Nat → Prop) (earlier h : Host) (opened : Multiset Nat)
    (referred : Multiset Library) (held : Multiset Instance) : Prop where
  balanced : h.Balanced opened referred held
  chronicled : h.Chronicled
  follows : Follows births earlier h

theorem sound_start (births : Nat → Prop) (files : FileTree) :
    Sound births (start files) (start files) 0 0 0 :=
  ⟨balanced_start files, chronicled_start files, Follows.refl births _⟩

namespace Sound

variable {births : Nat → Prop} {earlier h h' : Host} {opened opened' : Multiset Nat}
  {referred referred' : Multiset Library} {held held' : Multiset Instance} {l : Library}
  {x : Instance} {m : Nat}

theorem restart (hs : Sound births earlier h opened referred held) :
    Sound births h h opened referred held :=
  ⟨hs.balanced, hs.chronicled, Follows.refl births h⟩

theorem resident (hs : Sound births earlier h opened referred held) {v : Mapping}
    (hv : h.mappings.find? m = some v) : Resident h.journal m := by
  have hpos := hs.balanced.mappings.positive m v hv
  have hcount := hs.chronicled.holds m
  rw [counter_of_find? hv] at hcount
  unfold Resident
  omega

/-- By the journal those mappings are resident that are in memory. -/
theorem resident_iff (hs : Sound births earlier h opened referred held) :
    Resident h.journal m ↔ ∃ v, h.mappings.find? m = some v := by
  constructor
  · intro hr
    have hcount := hs.chronicled.holds m
    cases hv : h.mappings.find? m with
    | some v => exact ⟨v, rfl⟩
    | none =>
      have hzero : h.mappings.counter Mapping.holds m = 0 := by simp [counter, hv]
      unfold Resident at hr
      omega
  · rintro ⟨v, hv⟩
    exact hs.resident hv

/-- What backed a plugin backs it after more has happened, as long as its library is referred to. -/
theorem backs_kept (hs : Sound births earlier h opened referred held)
    (hs' : Sound births h h' opened' referred' held') {info : PluginInfo} (hb : h.Backs info l)
    (hl : l ∈ referred') : h'.Backs info l := by
  have ⟨v, hv, _⟩ := hb
  obtain ⟨v', hv'⟩ := hs'.balanced.resident_of_referred hl
  exact hb.of_follows hs'.follows (hs.balanced.mapping_lt_fresh hv) hv'

/-- A step: what is left to say of the new host when it is in balance and follows the old one. -/
theorem step (hs : Sound births earlier h opened referred held)
    (hb : h'.Balanced opened' referred' held') (hf : Follows births h h') (lawful : Lawful h'.journal)
    (holds : ∀ m, h'.journal.count (.held m) =
      h'.journal.count (.returned m) + h'.mappings.counter Mapping.holds m)
    (born : ∀ id v, h'.instances.find? id = some v →
      Created h'.journal v.body.library.origin v.body.tag id ∧ deletions h'.journal id = 0)
    (unborn : ∀ o tag id, Created h'.journal o tag id → id < h'.fresh)
    (backed : ∀ id v, h.fresh ≤ id → h'.instances.find? id = some v →
      h'.Backs v.body.info v.body.library) : Sound births earlier h' opened' referred' held' := by
  refine ⟨hb, ⟨lawful, holds, born, unborn, fun id v hv => ?_⟩, hs.follows.trans hf⟩
  by_cases hid : h.fresh ≤ id
  · exact backed id v hid hv
  · obtain ⟨v₀, hv₀, hbody⟩ := hf.survived id v (by omega) hv
    have hbacks := hs.chronicled.backed id v₀ hv₀
    rw [← hbody] at hbacks
    have ⟨w, hw, _⟩ := hbacks
    obtain ⟨w', hw'⟩ := hb.resident_of_held (hb.instances.body_mem hv).1
    exact hbacks.of_follows hf (hs.balanced.mapping_lt_fresh hw) hw'

/-- A step that neither writes into the journal nor touches mappings, and keeps the instances. -/
theorem silent (hs : Sound births earlier h opened referred held)
    (hb : h'.Balanced opened' referred' held')
    (hj : h'.journal = h.journal) (hm : h'.mappings = h.mappings) (hf : h.fresh ≤ h'.fresh)
    (hi : ∀ id v, h'.instances.find? id = some v →
      ∃ v₀, h.instances.find? id = some v₀ ∧ v.body = v₀.body)
    (hk : ∀ id, h.instances.find? id ≠ none → h'.instances.find? id ≠ none) :
    Sound births earlier h' opened' referred' held' := by
  refine hs.step hb ⟨?_, ?_, hf, ?_, fun id v _ hv => hi id v hv, ?_⟩ ?_ ?_ ?_ ?_ ?_
  · rw [hj]
  · intro o tag id hc
    rw [hj] at hc
    exact .inl hc
  · intro id v _ hv
    rw [hm] at hv
    exact ⟨v, hv, rfl⟩
  · intro id _
    have hkeep := hk id
    rw [hj]
    cases h₀ : h.instances.find? id with
    | none => simp [ending]
    | some v₀ =>
      rw [h₀] at hkeep
      obtain ⟨v, hv⟩ := Option.ne_none_iff_exists'.1 (hkeep (by simp))
      simp [ending, hv]
  · rw [hj]; exact hs.chronicled.lawful
  · rw [hj, hm]; exact hs.chronicled.holds
  · intro id v hv
    obtain ⟨v₀, hv₀, hbody⟩ := hi id v hv
    rw [hj, hbody]
    exact hs.chronicled.born id v₀ hv₀
  · intro o tag id hc
    rw [hj] at hc
    exact Nat.lt_of_lt_of_le (hs.chronicled.unborn o tag id hc) hf
  · intro id v hid hv
    obtain ⟨v₀, hv₀, -⟩ := hi id v hv
    have hlt := hs.balanced.living_lt_fresh hv₀
    omega

end Sound

end Host

end PluginHost
