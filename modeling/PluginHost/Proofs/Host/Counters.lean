import PluginHost.Proofs.Handle.Soundness
import PluginHost.Proofs.Host.Evolution

/-!
# Raising and lowering counters

Holders are added by making, cloning and sharing, and then at most one is given back. The host counts down
without looking whether a counter is zero, so what is given back must be held when it is given back.

* `Host.Balanced.positive`: the counters of what is held are not zero.
* `Host.Gains`: a host in which nothing was given back.
* `Host.Counts`: what one action may do to the counters of a host.
* `Host.Yields`: the same, with the host sound when a holder is given back.
-/

namespace PluginHost

set_option autoImplicit false

open PluginHost.Table

/-! ## Counters of what is held -/

theorem Host.uses_eq_counter (h : Host) (x : Instance) :
    h.uses x = h.instances.counter Living.uses x.id := by
  unfold uses counter
  cases h.instances.find? x.id <;> rfl

theorem Host.Balanced.positive {h : Host} {opened : Multiset Nat} {referred : Multiset Library}
    {held : Multiset Instance} {x : Instance} (hb : h.Balanced opened referred held) (hx : x ∈ held) :
    0 < h.uses x ∧ 0 < h.live x.library := by
  constructor
  · rw [h.uses_eq_counter, hb.instances.counted.counts x.id]
    exact Multiset.count_pos.2 (Multiset.mem_map_of_mem Instance.id hx)
  · have hmaker := hb.maker_of_held hx
    obtain ⟨r, hr, -⟩ := hb.records.kept x.library (Multiset.mem_add.2 (.inr hmaker))
    have hlive : h.live x.library = (h.makers.map Library.id).count x.library.id := by
      rw [← hb.live x.library.id r hr, Host.live, hr]
    rw [hlive]
    exact Multiset.count_pos.2 (Multiset.mem_map_of_mem Library.id hmaker)

/-! ## Raising -/

@[simp] theorem Host.instances_retainLibrary (h : Host) (l : Library) :
    (h.retainLibrary l).instances = h.instances := by
  unfold retainLibrary
  split <;> rfl

@[simp] theorem Host.instances_countLive (h : Host) (l : Library) (change : Nat → Nat) :
    (h.countLive l change).instances = h.instances := by
  unfold countLive
  split <;> rfl

/-- A factory makes no other instance than the new one. -/
theorem Host.find?_instances_instantiate (h : Host) (info : PluginInfo) (l : Library) {id : Nat}
    (hid : id ≠ h.fresh) : (h.instantiate info l).2.instances.find? id = h.instances.find? id := by
  unfold instantiate
  split
  · rfl
  · simp only [note, log, instances_countLive, instances_retainLibrary, call]
    exact find?_put_of_ne _ _ hid

/-- From the one host to the other events were told, holders were added and instances were made. -/
inductive Host.Gains (h : Host) : Host → Prop where
  | refl : h.Gains h
  | log {g : Host} (e : Event) : h.Gains g → h.Gains (g.log e)
  | retain {g : Host} (x : Instance) : h.Gains g → h.Gains (g.retain x)
  | instantiate {g : Host} (info : PluginInfo) (l : Library) :
    h.Gains g → h.Gains (g.instantiate info l).2

namespace Host.Gains

variable {h g : Host}

/-- What lived before lives on. -/
theorem kept (hg : h.Gains g) {id : Nat} {v : Living} (hlt : id < h.fresh)
    (hv : h.instances.find? id = some v) :
    h.fresh ≤ g.fresh ∧ ∃ v', g.instances.find? id = some v' ∧ v'.body = v.body := by
  induction hg with
  | refl => exact ⟨Nat.le_refl _, v, hv, rfl⟩
  | log e _ ih => exact ih
  | @retain g x _ ih =>
    obtain ⟨hle, v', hv', hbody⟩ := ih
    unfold Host.retain
    split
    · exact ⟨hle, v', hv', hbody⟩
    · next u hu =>
      refine ⟨hle, ?_⟩
      by_cases hid : id = x.id
      · subst hid
        rw [hv', Option.some.injEq] at hu
        exact ⟨_, find?_put_self _ _ _, hu ▸ hbody⟩
      · exact ⟨v', (find?_put_of_ne _ _ hid).trans hv', hbody⟩
  | @instantiate g info l _ ih =>
    obtain ⟨hle, v', hv', hbody⟩ := ih
    have hne : id ≠ g.fresh := by omega
    refine ⟨Nat.le_trans hle (Host.evolves_instantiate (h := g) (l := l) info).fresh, v', ?_, hbody⟩
    rw [Host.find?_instances_instantiate g info l hne, hv']

theorem retainHandle (hg : h.Gains g) (handle : Handle) : h.Gains (handle.retain g) := by
  unfold Handle.retain
  split
  · exact hg
  · exact hg.retain _

theorem query (hg : h.Gains g) (handle : Handle) (interface : String) :
    h.Gains (handle.query g interface).2 := by
  unfold Handle.query
  split
  · exact hg
  · simp only [Host.resolve]
    split
    · exact hg.log _
    · exact hg

theorem bind (hg : h.Gains g) (handle : Handle) (candidates : Candidates) :
    h.Gains (Specialized.bind handle candidates g).2 := by
  unfold Specialized.bind
  induction candidates.interfaces generalizing g with
  | nil => exact hg
  | cons i rest ih => exact ih (hg.query handle i.name)

theorem make (hg : h.Gains g) (handle : Handle) (candidates : Option Candidates) :
    h.Gains (Holder.make handle candidates g).2 := by
  cases candidates with
  | none => exact hg
  | some c => exact hg.bind handle c

theorem queryHolder (hg : h.Gains g) (x : Holder) (i : Interface) : h.Gains (x.query g i).2 := by
  cases x with
  | generic handle => exact hg.query handle i.name
  | specialized s =>
    simp only [Holder.query, Specialized.query]
    split
    · exact hg
    · exact hg.query s.handle i.name

end Host.Gains

/-! ## Lowering -/

/-- The counters of a host stay as they are, or they are raised and then at most one holder is given back,
of an instance with neither of its two counters at zero. -/
inductive Host.Counts (h : Host) : Host → Prop where
  | kept {h' : Host} (uses : ∀ x, h'.uses x = h.uses x) (live : ∀ l, h'.live l = h.live l) : h.Counts h'
  | raised {h' : Host} (gains : h.Gains h') : h.Counts h'
  | lowered {g : Host} {x : Instance} (gains : h.Gains g) (uses : 0 < g.uses x)
    (live : 0 < g.live x.library) : h.Counts (g.release x)

/-- Holders are added and instances made, and then at most one holder is given back, to a host that is
sound with the holders as they are then. -/
inductive Host.Yields (h : Host) : Host → Prop where
  | kept {h' : Host} (uses : ∀ x, h'.uses x = h.uses x) (live : ∀ l, h'.live l = h.live l) : h.Yields h'
  | raised {h' : Host} (gains : h.Gains h') : h.Yields h'
  | lowered {births : Nat → Prop} {earlier g : Host} {x : Instance} {opened : Multiset Nat}
    {referred : Multiset Library} {held : Multiset Instance} (gains : h.Gains g)
    (sound : Host.Sound births earlier g opened referred (x ::ₘ held)) : h.Yields (g.release x)

theorem Host.Yields.counts {h h' : Host} (hy : h.Yields h') : h.Counts h' := by
  cases hy with
  | kept uses live => exact .kept uses live
  | raised gains => exact .raised gains
  | lowered gains sound =>
    obtain ⟨huses, hlive⟩ := sound.balanced.positive (Multiset.mem_cons_self _ _)
    exact .lowered gains huses hlive

theorem Host.Gains.releaseMember {births : Nat → Prop} {earlier h g : Host} (hg : h.Gains g)
    {opened : Multiset Nat} {referred : Multiset Library} {held : Multiset Instance} {x : Instance}
    (hs : Host.Sound births earlier g opened referred held) (hx : x ∈ held) :
    h.Yields (g.release x) := by
  rw [← Multiset.cons_erase hx] at hs
  exact .lowered hg hs

theorem Host.Gains.releaseHandle {births : Nat → Prop} {earlier h g : Host} (hg : h.Gains g)
    {opened : Multiset Nat} {referred : Multiset Library} {held : Multiset Instance}
    (hs : Host.Sound births earlier g opened referred held) {handle : Handle} (hsub : handle.owned ⊆ held) :
    h.Yields (handle.release g) := by
  unfold Handle.release
  split
  · exact .raised hg
  · next x hx => exact hg.releaseMember hs (hsub (Handle.mem_owned.2 hx))

end PluginHost
