import Mathlib.Data.Multiset.Count
import PluginHost.Proofs.Table.Bag

/-!
# Tables of counted entries

Mappings, libraries and instances are kept in the same way: an entry carries the number of its owners
and goes with the last of them. `Counted` says that the counters of a table are right for a bag of
owners, each given by the key of the entry that it owns; one more owner, one owner less and a new entry
keep it so.
-/

namespace PluginHost.Table

set_option autoImplicit false

variable {ν : Type}

/-- The counter of the entry under a key; where there is no entry it is zero. -/
def counter (t : Table Nat ν) (count : ν → Nat) (k : Nat) : Nat := ((find? t k).map count).getD 0

theorem counter_of_find? {t : Table Nat ν} {count : ν → Nat} {k : Nat} {v : ν}
    (h : find? t k = some v) : t.counter count k = count v := by
  simp [counter, h]

theorem counter_put (t : Table Nat ν) (count : ν → Nat) (j k : Nat) (v : ν) :
    (put t k v).counter count j = if j = k then count v else t.counter count j := by
  by_cases h : j = k
  · subst h; simp [counter]
  · simp [counter, find?_put_of_ne t v h, h]

theorem counter_erase (t : Table Nat ν) (count : ν → Nat) (j k : Nat) :
    (erase t k).counter count j = if j = k then 0 else t.counter count j := by
  by_cases h : j = k
  · subst h; simp [counter]
  · simp [counter, find?_erase, h, Ne.symm h]

/-- Every entry has an owner, and its counter is the number of its owners. -/
structure Counted (t : Table Nat ν) (count : ν → Nat) (owners : Multiset Nat) : Prop where
  distinct : Distinct t
  positive : ∀ k v, find? t k = some v → 0 < count v
  counts : ∀ k, t.counter count k = owners.count k

namespace Counted

variable {t : Table Nat ν} {count : ν → Nat} {owners : Multiset Nat} {k : Nat} {v v' : ν}

theorem nil (count : ν → Nat) : Counted ([] : Table Nat ν) count 0 where
  distinct := distinct_nil
  positive := by intro k v h; simp at h
  counts := by intro k; simp [counter]

/-! ## Entries and owners -/

theorem count_eq (h : Counted t count owners) (hv : find? t k = some v) :
    count v = owners.count k := by
  rw [← h.counts k, counter_of_find? hv]

theorem mem_owners (h : Counted t count owners) (hv : find? t k = some v) : k ∈ owners := by
  have hpos := h.positive k v hv
  rw [h.count_eq hv] at hpos
  exact Multiset.count_pos.1 hpos

theorem exists_of_mem (h : Counted t count owners) (hk : k ∈ owners) : ∃ v, find? t k = some v := by
  have hpos := Multiset.count_pos.2 hk
  rw [← h.counts k] at hpos
  cases hv : find? t k with
  | some v => exact ⟨v, rfl⟩
  | none => simp [counter, hv] at hpos

/-! ## Operations -/

/-- An entry is put under `k`, and only the number of owners of `k` changes. -/
theorem put_of_count {owners' : Multiset Nat} (h : Counted t count owners) (hpos : 0 < count v)
    (hk : owners'.count k = count v) (hne : ∀ j, j ≠ k → owners'.count j = owners.count j) :
    Counted (put t k v) count owners' where
  distinct := h.distinct.put k v
  positive := by
    intro j w hw
    by_cases hj : j = k
    · subst hj
      rw [find?_put_self, Option.some.injEq] at hw
      exact hw ▸ hpos
    · rw [find?_put_of_ne t v hj] at hw
      exact h.positive j w hw
  counts := by
    intro j
    rw [counter_put]
    by_cases hj : j = k
    · rw [if_pos hj, hj, hk]
    · rw [if_neg hj, h.counts j, hne j hj]

/-- One more owner of `k`, whose entry may be new. -/
theorem put_cons (h : Counted t count owners) (hv : count v = t.counter count k + 1) :
    Counted (put t k v) count (k ::ₘ owners) := by
  refine h.put_of_count (by omega) ?_ ?_
  · rw [Multiset.count_cons_self, hv, h.counts k]
  · intro j hj
    exact Multiset.count_cons_of_ne hj owners

theorem put_same (h : Counted t count owners) (hv : find? t k = some v) (hc : count v' = count v) :
    Counted (put t k v') count owners := by
  refine h.put_of_count ?_ ?_ fun _ _ => rfl
  · rw [hc]; exact h.positive k v hv
  · rw [hc, h.count_eq hv]

theorem put_pred (h : Counted t count (k ::ₘ owners)) (hv : find? t k = some v) (hmany : ¬ count v ≤ 1)
    (hc : count v' = count v - 1) : Counted (put t k v') count owners := by
  have hcount := h.count_eq hv
  rw [Multiset.count_cons_self] at hcount
  refine h.put_of_count (by omega) (by omega) ?_
  intro j hj
  exact (Multiset.count_cons_of_ne hj owners).symm

theorem erase_last (h : Counted t count (k ::ₘ owners)) (hv : find? t k = some v)
    (hlast : count v ≤ 1) : Counted (erase t k) count owners where
  distinct := h.distinct.erase k
  positive := by
    intro j w hw
    by_cases hj : j = k
    · subst hj; simp at hw
    · rw [find?_erase] at hw
      simp only [beq_iff_eq, Ne.symm hj, if_false] at hw
      exact h.positive j w hw
  counts := by
    intro j
    have hcount := h.count_eq hv
    rw [Multiset.count_cons_self] at hcount
    rw [counter_erase]
    by_cases hj : j = k
    · rw [if_pos hj, hj]; omega
    · rw [if_neg hj, h.counts j, Multiset.count_cons_of_ne hj]

end Counted

end PluginHost.Table
