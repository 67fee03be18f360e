import PluginHost.Proofs.World.Residency

/-!
# The life cycle of instances

What an action writes into the journal, and who holds what before and after it, fit together: code is
called only while it is in memory, an instance that is made has a holder, and an instance of the current
version is deleted in the action that takes its last holder and in no other.

* `World.eventsOf`: what happens in an action.
* `World.Current`: an instance comes from a library of the current version.
* `World.LifeCycle`: what every action in every reachable world keeps to.
-/

namespace PluginHost.World

set_option autoImplicit false

open PluginHost.Table PluginHost.Journal

/-! ## Events of an action -/

/-- What happens in an action, in order. -/
def eventsOf (w : World) (a : Action) : List Event := (w.after a).host.eventsSince w.host

/-- The instance comes from a library of the current version. -/
def Current (w : World) (x : Instance) : Prop :=
  ∃ v, w.host.mappings.find? x.library.origin.mapping = some v ∧
    v.image.version = some Abi.currentVersion

/-- What the calls into plugin code and the instances keep to in an action. -/
structure LifeCycle (w : World) (a : Action) : Prop where
  /-- Code is called only while its mapping is resident. -/
  resident : ∀ later earlier o c, (w.after a).host.journal = later ++ .call o c :: earlier →
    Resident earlier o.mapping
  /-- By the journal those mappings are resident that are in memory. -/
  mapped : ∀ m, Resident (w.after a).host.journal m ↔ ∃ v, (w.after a).host.mappings.find? m = some v
  /-- A cast function is called on an instance that a factory of its library made, before the instance
  is deleted. -/
  cast : ∀ later earlier o tag id i,
    (w.after a).host.journal = later ++ .call o (.cast tag id i) :: earlier →
    Created earlier o tag id ∧ deletions earlier id = 0
  /-- So is a deleter. -/
  deleted : ∀ later earlier o tag id,
    (w.after a).host.journal = later ++ .call o (.delete tag id) :: earlier →
    Created earlier o tag id ∧ deletions earlier id = 0
  /-- An instance that is made has a holder when the action is done. -/
  born : ∀ o tag id, .call o (.create tag (some id)) ∈ w.eventsOf a →
    ∃ x ∈ (w.after a).held, x.id = id ∧ x.tag = tag ∧ x.library.origin = o
  /-- No instance is deleted twice. -/
  once : ∀ id, deletions (w.after a).host.journal id ≤ 1
  /-- An instance that has a holder was not deleted. -/
  spared : ∀ x ∈ (w.after a).held, deletions (w.after a).host.journal x.id = 0
  /-- An instance of the current version is deleted in the action that takes its last holder. -/
  ended : ∀ x ∈ w.held, w.Current x →
    deletions (w.eventsOf a) x.id = if x ∈ (w.after a).held then 0 else 1
  /-- Nothing else is deleted, and so no instance of an older version. -/
  only : ∀ o tag id, .call o (.delete tag id) ∈ w.eventsOf a →
    ∃ x ∈ w.held, x.id = id ∧ x.tag = tag ∧ x.library.origin = o ∧ w.Current x ∧
      x ∉ (w.after a).held
  /-- The version of an instance stays what it is. -/
  version : ∀ x ∈ w.held, x ∈ (w.after a).held → (w.Current x ↔ (w.after a).Current x)
  /-- A factory that makes nothing is called, and this is said; the rest of the action is that of an
  empty handle, and the live instances of every library stay as many. -/
  nothing : ∀ loader plugin name candidates L e, a = .instantiate loader plugin name candidates →
    w.loaders.find? loader = some L → L.index.find? (Name.normalize plugin) = some e →
    e.info.factory.product = .nothing →
    ∃ h, h = (w.host.call e.library.origin (.create e.info.factory.tag none)).note
        (.factoryFailed e.info.name) ∧
      (∀ l, h.live l = w.host.live l) ∧
      w.after a = ({ w with host := h } : World).after (.newHandle name candidates)

/-! ## Before and after an action -/

section Step

variable {births : Nat → Prop} {earlier : Host} {w : World} {a : Action} {x : Instance} {id : Nat}

theorem Sound.current_iff (hs : Sound births earlier w 0) (hx : x ∈ w.held) :
    w.Current x ↔ x.info.deleter = .plugin := by
  obtain ⟨v, hv, hbody⟩ := hs.lives_iff.2 hx
  obtain ⟨m, hm, hoffers⟩ := hs.host.chronicled.backed x.id v hv
  rw [hbody] at hm hoffers
  rw [hoffers.deleter_eq_plugin_iff]
  constructor
  · rintro ⟨m', hm', hversion⟩
    have hsame : some m = some m' := hm.symm.trans hm'
    rw [Option.some.inj hsame]
    exact hversion
  · exact fun hversion => ⟨m, hm, hversion⟩

theorem Sound.spared (hs : Sound births earlier w 0) (hx : x ∈ w.held) :
    Created w.host.journal x.library.origin x.tag x.id ∧ deletions w.host.journal x.id = 0 := by
  obtain ⟨v, hv, hbody⟩ := hs.lives_iff.2 hx
  have hborn := hs.host.chronicled.born x.id v hv
  rwa [hbody] at hborn

/-- An instance that an action makes has a holder afterwards. -/
theorem held_of_bears (hid : w.Bears a id) :
    ∃ x ∈ (w.after a).held, x.id = id ∧
      ∃ name L plugin, w.loaders.find? name = some L ∧ (L.instantiate w.host plugin).1.held = some x := by
  cases a with
  | instantiate loader plugin name candidates =>
    obtain ⟨L, x, hL, hx, rfl⟩ := hid
    refine ⟨x, ?_, rfl, loader, L, plugin, hL, hx⟩
    simp only [after, perform, Answer.ofOption, World.instantiate, hL]
    have hmade := Holder.make_handle (L.instantiate w.host plugin).1 candidates
      (L.instantiate w.host plugin).2
    refine owned_subset_held (find?_put_self _ _ _) (Handle.mem_owned.2 ?_)
    rw [hmade]
    exact hx
  | _ => exact False.elim hid

variable (hs : Sound births earlier w 0) (hs' : Sound (w.Bears a) w.host (w.after a) 0)

include hs' in
theorem journal_after : (w.after a).host.journal = (w.eventsOf a).reverse ++ w.host.journal := by
  obtain ⟨es, hes⟩ := hs'.host.follows.journal
  rw [eventsOf, Host.eventsSince, ← hes]
  simp

include hs' in
theorem deletions_after : deletions (w.after a).host.journal id =
    deletions (w.eventsOf a) id + deletions w.host.journal id := by
  rw [journal_after hs', deletions_append, deletions_reverse]

/-- An instance that had a holder is deleted if it has a deleter and has no holder any more. -/
theorem deletions_of_held (hs : Sound births earlier w 0) (hs' : Sound (w.Bears a) w.host (w.after a) 0)
    (hx : x ∈ w.held) : deletions (w.eventsOf a) x.id =
      if x ∉ (w.after a).held ∧ x.info.deleter = .plugin then 1 else 0 := by
  obtain ⟨v, hv, hbody⟩ := hs.lives_iff.2 hx
  have hlt := hs.host.balanced.living_lt_fresh hv
  have hended := hs'.host.follows.ended x.id hlt
  rw [deletions_after hs', Nat.add_comm, Nat.add_left_cancel_iff, hv] at hended
  rw [hended]
  cases hafter : (w.after a).host.instances.find? x.id with
  | none =>
    have hgone : x ∉ (w.after a).held := by
      intro hheld
      obtain ⟨v', hv', -⟩ := hs'.lives_iff.2 hheld
      rw [hafter] at hv'
      simp at hv'
    simp [Host.ending, hbody, hgone]
  | some v' =>
    obtain ⟨v₀, hv₀, hsame⟩ := hs'.host.follows.survived x.id v' hlt hafter
    rw [hv, Option.some.injEq] at hv₀
    have hheld : x ∈ (w.after a).held := hs'.lives_iff.1 ⟨v', hafter, by rw [hsame, ← hv₀, hbody]⟩
    simp [Host.ending, hheld]

/-- What is deleted in an action had a holder. -/
theorem held_of_deletions (hs : Sound births earlier w 0)
    (hs' : Sound (w.Bears a) w.host (w.after a) 0) (hpos : 0 < deletions (w.eventsOf a) id) :
    ∃ x ∈ w.held, x.id = id := by
  have hafter : deletions (w.after a).host.journal id =
      deletions (w.eventsOf a) id + deletions w.host.journal id := deletions_after hs'
  have hpos' : 0 < deletions (w.after a).host.journal id := by omega
  obtain ⟨o, tag, hc⟩ := hs'.host.chronicled.lawful.created_of_deletions hpos'
  by_cases hid : id < w.host.fresh
  · have hended := hs'.host.follows.ended id hid
    cases hv : w.host.instances.find? id with
    | none =>
      rw [hv] at hended
      simp only [Host.ending] at hended
      omega
    | some v =>
      have hbody := hs.host.balanced.instances.body_mem hv
      refine ⟨v.body, hs.lives_iff.1 ⟨v, ?_, rfl⟩, hbody.2⟩
      rw [hbody.2]
      exact hv
  · -- an instance made in this action still has its holder
    rcases hs'.host.follows.made o tag id hc with hc | hbears
    · exact absurd (hs.host.chronicled.unborn o tag id hc) hid
    · obtain ⟨x, hx, rfl, -⟩ := held_of_bears hbears
      have hnone := (hs'.spared hx).2
      omega

end Step

/-! ## Factories that make nothing -/

/-- A factory that makes nothing leaves behind what an empty handle does, and two lines in the
journal. -/
theorem instantiate_of_nothing {w : World} {loader plugin name : String} {L : Loader} {e : IndexEntry}
    (candidates : Option Candidates) (hL : w.loaders.find? loader = some L)
    (he : L.index.find? (Name.normalize plugin) = some e) (hp : e.info.factory.product = .nothing) :
    (w.instantiate loader plugin name candidates).2 =
      { w with
        host := (w.host.call e.library.origin (.create e.info.factory.tag none)).note
          (.factoryFailed e.info.name) }.keep name (.empty candidates) := by
  have hmake := Holder.make_empty candidates
  simp only [Handle.empty] at hmake
  simp only [World.instantiate, hL, Loader.instantiate, he, Host.instantiate_of_nothing _ _ hp, hmake]

/-! ## Every action -/

/-- Every action in every reachable world keeps to the life cycle. -/
theorem lifeCycle {w : World} (hw : Reachable w) (a : Action) : LifeCycle w a := by
  have hs := sound_of_reachable (w.Bears a) hw
  have hs' := hs.after a fun _ hid => hid
  have hlawful := hs'.host.chronicled.lawful
  have hjournal := journal_after hs'
  have hmem : ∀ e ∈ w.eventsOf a, e ∈ (w.after a).host.journal := by
    intro e he
    rw [hjournal]
    exact List.mem_append_left _ (List.mem_reverse.2 he)
  constructor
  case resident =>
    intro later earlier o c heq
    rw [heq] at hlawful
    exact hlawful.allowed.1
  case mapped => exact fun m => hs'.host.resident_iff
  case cast =>
    intro later earlier o tag id i heq
    rw [heq] at hlawful
    exact hlawful.allowed.2
  case deleted =>
    intro later earlier o tag id heq
    rw [heq] at hlawful
    exact hlawful.allowed.2
  case born =>
    intro o tag id he
    rcases hs'.host.follows.made o tag id (hmem _ he) with hc | hbears
    · rw [hjournal] at hlawful
      exact absurd hc (hlawful.not_created (List.mem_reverse.2 he))
    · obtain ⟨x, hx, rfl, -⟩ := held_of_bears hbears
      obtain ⟨ho, htag⟩ := hlawful.created_unique (hs'.spared hx).1 (hmem _ he)
      exact ⟨x, hx, rfl, htag, ho⟩
  case once => exact fun id => hlawful.deletions_le_one id
  case spared => exact fun x hx => (hs'.spared hx).2
  case ended =>
    intro x hx hcurrent
    rw [deletions_of_held hs hs' hx, (hs.current_iff hx).1 hcurrent]
    by_cases hheld : x ∈ (w.after a).held <;> simp [hheld]
  case only =>
    intro o tag id he
    obtain ⟨x, hx, rfl⟩ := held_of_deletions hs hs' (deletions_pos he)
    have hpos := deletions_pos he
    rw [deletions_of_held hs hs' hx] at hpos
    split at hpos
    · next hgone =>
      have hc := (hs.spared hx).1.mono hs'.host.follows.journal
      have hc' := hlawful.created_of_deleted (hmem _ he)
      obtain ⟨ho, htag⟩ := hlawful.created_unique hc hc'
      exact ⟨x, hx, rfl, htag, ho, (hs.current_iff hx).2 hgone.2, hgone.1⟩
    · omega
  case version =>
    intro x hx hx'
    rw [hs.current_iff hx, hs'.current_iff hx']
  case nothing =>
    rintro loader plugin name candidates L e rfl hL he hp
    refine ⟨_, rfl, fun l => rfl, ?_⟩
    exact instantiate_of_nothing candidates hL he hp

/-- The last handle of an instance is dropped: its deleter is called. -/
theorem lifeCycle_of_sharing : Reachable sharing ∧ LifeCycle sharing (.dropHandle "h") ∧
    .call ⟨1, "dynaplug_dummy_plugins", false⟩ (.delete "dynaplug_dummy_plugins.0" 4) ∈
      sharing.eventsOf (.dropHandle "h") ∧
    ∃ x ∈ sharing.held, x.id = 4 ∧ sharing.Current x ∧
      x ∉ (sharing.after (.dropHandle "h")).held := by
  have hreach : Reachable sharing := (Reachable.start _).run _
  have hcycle := lifeCycle hreach (.dropHandle "h")
  have hdeleted : .call ⟨1, "dynaplug_dummy_plugins", false⟩ (.delete "dynaplug_dummy_plugins.0" 4) ∈
      sharing.eventsOf (.dropHandle "h") := by decide +kernel
  obtain ⟨x, hx, hid, -, -, hcurrent, hgone⟩ := hcycle.only _ _ _ hdeleted
  exact ⟨hreach, hcycle, hdeleted, x, hx, hid, hcurrent, hgone⟩

end PluginHost.World
