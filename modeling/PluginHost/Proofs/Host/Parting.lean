import PluginHost.Proofs.Host.Restored
import PluginHost.Proofs.Host.Soundness

/-!
# Parting with an instance

An instance of a plugin without a deleter ends like any other: it is counted no longer, and its library is
given back, which is unloaded when nothing else refers to it. Only its memory stays behind, for no code of
the library runs.

* `Host.Parts`: an instance is gone, and with it what it counted for.
* `Host.Sound.parts`: so it is when its last holder is given back.
-/

namespace PluginHost.Host

set_option autoImplicit false

open PluginHost.Table

/-! ## What is written down -/

theorem silent_countLive (h : Host) (l : Library) (change : Nat → Nat) : h.Silent (h.countLive l change) := by
  unfold countLive
  split <;> exact .of_journal rfl

theorem silent_releaseLibrary (h : Host) (l : Library) : h.Silent (h.releaseLibrary l) := by
  unfold releaseLibrary
  split
  · exact .of_journal rfl
  · split
    · exact (Silent.trans (.of_journal rfl) (silent_note _ _)).trans (silent_closeMapping _ _)
    · exact .of_journal rfl

/-- Without a deleter there is nothing to call. -/
theorem silent_release (h : Host) {x : Instance} (hleak : x.info.deleter = .leak) :
    h.Silent (h.release x) := by
  unfold release
  split
  · exact .of_journal rfl
  · split
    · simp only [destroy, hleak]
      have hcounted : h.Silent (Host.countLive { h with instances := h.instances.erase x.id } x.library
          (· - 1)) := Silent.trans (.of_journal rfl) (silent_countLive _ _ _)
      exact (hcounted.trans (silent_note _ _)).trans (silent_releaseLibrary _ _)
    · exact .of_journal rfl

/-! ## What is given back -/

/-- From the first host to the second an instance went, without a call: its library has one live instance
and one reference fewer, and if nothing refers to it any more, its mapping has one hold fewer. All other
counters are what they were. -/
structure Parts (h h' : Host) (x : Instance) : Prop where
  silent : h.Silent h'
  gone : h'.instances.find? x.id = none
  live : ∀ l, h.live l = h'.live l + if l.id = x.library.id then 1 else 0
  references : ∀ id, h.records.counter Record.references id =
    h'.records.counter Record.references id + if id = x.library.id then 1 else 0
  holds : ∀ m, h.mappings.counter Mapping.holds m =
    h'.mappings.counter Mapping.holds m + if m = home x.library ∧ x.library ∉ h'.libraries then 1 else 0

namespace Sound

variable {births : Nat → Prop} {earlier h h' : Host} {opened : Multiset Nat} {referred : Multiset Library}
  {held : Multiset Instance} {x : Instance}

/-- The libraries are those of before, or the one of the instance is gone. -/
theorem libraries_eq (hs : Sound births earlier h opened referred (x ::ₘ held))
    (hs' : Sound births earlier h' opened referred held) (hlast : x ∉ held) :
    h.libraries = if x.library ∈ h'.libraries then h'.libraries else x.library ::ₘ h'.libraries := by
  have hmakers : h.makers = x.library ::ₘ h'.makers := by
    rw [hs.balanced.makers_eq, hs'.balanced.makers_eq, Multiset.dedup_cons_of_notMem hlast,
      Multiset.map_cons]
  have hmem : ∀ l, l ∈ h.libraries ↔ l = x.library ∨ l ∈ h'.libraries := fun l => by
    rw [hs.balanced.mem_libraries, hs'.balanced.mem_libraries, hmakers, Multiset.add_cons,
      Multiset.mem_cons]
  split
  · next hkept =>
    refine (Multiset.Nodup.ext hs.balanced.libraries_nodup hs'.balanced.libraries_nodup).2 fun l => ?_
    rw [hmem, or_iff_right_of_imp]
    rintro rfl
    exact hkept
  · next hgone =>
    refine (Multiset.Nodup.ext hs.balanced.libraries_nodup
      (Multiset.nodup_cons.2 ⟨hgone, hs'.balanced.libraries_nodup⟩)).2 fun l => ?_
    rw [hmem, Multiset.mem_cons]

/-- What its last holder gives back is an instance with all that it counted for. -/
theorem parts (hs : Sound births earlier h opened referred (x ::ₘ held)) (hlast : x ∉ held)
    (hleak : x.info.deleter = .leak) : h.Parts (h.release x) x := by
  have hs' : Sound births earlier (h.release x) opened referred held := hs.release
  constructor
  case silent => exact h.silent_release hleak
  case gone =>
    cases hv : (h.release x).instances.find? x.id with
    | none => rfl
    | some v =>
      obtain ⟨hmem, hid⟩ := hs'.balanced.instances.body_mem hv
      have hsame : v.body = x := hs.balanced.instances.eq_of_key_eq (Multiset.mem_cons_of_mem hmem)
        (Multiset.mem_cons_self _ _) hid
      exact absurd (hsame ▸ hmem) hlast
  case live =>
    intro l
    rw [hs.balanced.live_eq, hs'.balanced.live_eq, Multiset.dedup_cons_of_notMem hlast, Multiset.map_cons,
      Multiset.count_cons]
  case references =>
    intro id
    rw [hs.balanced.records.counted.counts, hs'.balanced.records.counted.counts, hs.balanced.makers_eq,
      hs'.balanced.makers_eq, Multiset.dedup_cons_of_notMem hlast, Multiset.map_cons, Multiset.add_cons,
      Multiset.map_cons, Multiset.count_cons]
  case holds =>
    intro m
    rw [hs.balanced.mappings.counts, hs'.balanced.mappings.counts, hs.libraries_eq hs' hlast]
    by_cases hkept : x.library ∈ (h.release x).libraries
    · simp [hkept]
    · simp only [hkept, if_false, not_false_eq_true, and_true]
      rw [Multiset.map_cons, Multiset.add_cons, Multiset.count_cons]

end Sound

end PluginHost.Host
