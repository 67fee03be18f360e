import PluginHost.Proofs.Table.Counted

/-!
# Tables of owned entries

An owner does not only own an entry, it knows what is in it: a loader knows the library that it refers
to, and a holder the instance that it holds. `Owned` says that the counters of a table are right and that
every owner finds what it knows, so that the entries and their owners tell the same things.

* `Table.Below`: no entry has a key from a number on, as in a table whose keys are handed out in order.
* `Table.Owned.mem_bodies`: what is in the entries is what the owners know.
* `Table.Owned.put_cons`, `Table.Owned.erase_last`, …: each operation moves one owner.
-/

namespace PluginHost.Table

set_option autoImplicit false

variable {ν β : Type}

/-! ## Keys that are handed out in order -/

/-- No entry has a key from `n` on. -/
def Below (t : Table Nat ν) (n : Nat) : Prop := ∀ k, n ≤ k → find? t k = none

namespace Below

variable {t : Table Nat ν} {n n' k : Nat} {v : ν}

theorem nil (n : Nat) : Below ([] : Table Nat ν) n := fun _ _ => rfl

theorem self (h : Below t n) : find? t n = none := h n (Nat.le_refl n)

theorem lt (h : Below t n) (hv : find? t k = some v) : k < n := by
  by_contra hlt
  rw [h k (by omega)] at hv
  simp at hv

theorem mono (h : Below t n) (hn : n ≤ n') : Below t n' := fun k hk => h k (Nat.le_trans hn hk)

theorem erase (h : Below t n) (k : Nat) : Below (erase t k) n := by
  intro j hj
  rw [find?_erase, h j hj, ite_self]

theorem put (h : Below t n) (hk : k < n) (v : ν) : Below (put t k v) n := by
  intro j hj
  have hne : j ≠ k := by omega
  rw [find?_put_of_ne t v hne, h j hj]

end Below

/-! ## Owners that know their entries -/

/-- Every counter is the number of owners, and every owner finds its entry as it knows it. -/
structure Owned (t : Table Nat ν) (count : ν → Nat) (body : ν → β) (key : β → Nat)
    (owners : Multiset β) : Prop where
  counted : Counted t count (owners.map key)
  kept : ∀ b ∈ owners, ∃ v, find? t (key b) = some v ∧ body v = b

namespace Owned

variable {t : Table Nat ν} {count : ν → Nat} {body : ν → β} {key : β → Nat} {owners : Multiset β}
  {k : Nat} {b b' : β} {v v' : ν}

theorem nil (count : ν → Nat) (body : ν → β) (key : β → Nat) :
    Owned ([] : Table Nat ν) count body key 0 where
  counted := Counted.nil count
  kept := by intro b hb; simp at hb

theorem distinct (h : Owned t count body key owners) : Distinct t := h.counted.distinct

theorem body_mem (h : Owned t count body key owners) (hv : find? t k = some v) :
    body v ∈ owners ∧ key (body v) = k := by
  obtain ⟨b, hb, rfl⟩ := Multiset.mem_map.1 (h.counted.mem_owners hv)
  obtain ⟨v', hv', rfl⟩ := h.kept b hb
  rw [hv, Option.some.injEq] at hv'
  exact ⟨hv' ▸ hb, by rw [hv']⟩

theorem body_eq (h : Owned t count body key owners) (hb : b ∈ owners)
    (hv : find? t (key b) = some v) : body v = b := by
  obtain ⟨v', hv', hbody⟩ := h.kept b hb
  rw [hv, Option.some.injEq] at hv'
  rw [hv', hbody]

/-- What the owners know under a key is one. -/
theorem eq_of_key_eq (h : Owned t count body key owners) (hb : b ∈ owners) (hb' : b' ∈ owners)
    (hk : key b = key b') : b = b' := by
  obtain ⟨v, hv, hbody⟩ := h.kept b hb
  rw [← hbody]
  exact h.body_eq hb' (hk ▸ hv)

/-! ## The bag of what is in the entries -/

theorem mem_bodies (h : Owned t count body key owners) : b ∈ (bag t).map body ↔ b ∈ owners := by
  constructor
  · intro hb
    obtain ⟨v, hv, rfl⟩ := Multiset.mem_map.1 hb
    obtain ⟨k, hk⟩ := exists_find?_of_mem_values h.distinct (mem_bag.1 hv)
    exact (h.body_mem hk).1
  · intro hb
    obtain ⟨v, hv, rfl⟩ := h.kept b hb
    exact Multiset.mem_map_of_mem body (mem_bag.2 (mem_values_of_find? hv))

theorem nodup_bodies (h : Owned t count body key owners) : ((bag t).map body).Nodup :=
  nodup_map_bag h.distinct body fun _ _ hv => (h.body_mem hv).2

/-! ## Operations -/

/-- An entry is put under `k`, and what the owners know under the other keys they knew before. -/
theorem put_of_counted {owners' : Multiset β} (h : Owned t count body key owners)
    (hcount : Counted (put t k v) count (owners'.map key))
    (hk : ∀ b ∈ owners', key b = k → body v = b) (hne : ∀ b ∈ owners', key b ≠ k → b ∈ owners) :
    Owned (put t k v) count body key owners' where
  counted := hcount
  kept := by
    intro b hb
    by_cases hkey : key b = k
    · exact ⟨v, by rw [hkey, find?_put_self], hk b hb hkey⟩
    · obtain ⟨w, hw, hbody⟩ := h.kept b (hne b hb hkey)
      exact ⟨w, by rw [find?_put_of_ne t v hkey, hw], hbody⟩

/-- One more owner, of an entry that is there. -/
theorem put_cons (h : Owned t count body key owners) (hb : b ∈ owners)
    (hv : find? t (key b) = some v) (hc : count v' = count v + 1) (hbody : body v' = b) :
    Owned (put t (key b) v') count body key (b ::ₘ owners) := by
  have hmem : ∀ b' ∈ b ::ₘ owners, b' ∈ owners := by
    intro b' hb'
    rcases Multiset.mem_cons.1 hb' with rfl | hb'
    · exact hb
    · exact hb'
  refine h.put_of_counted ?_ (fun b' hb' hkey => ?_) fun b' hb' _ => hmem b' hb'
  · rw [Multiset.map_cons]
    exact h.counted.put_cons (by rw [hc, counter_of_find? hv])
  · rw [hbody]
    exact h.eq_of_key_eq hb (hmem b' hb') hkey.symm

theorem put_new (h : Owned t count body key owners) (hnone : find? t (key b) = none)
    (hc : count v = 1) (hbody : body v = b) :
    Owned (put t (key b) v) count body key (b ::ₘ owners) := by
  have hne : ∀ b' ∈ owners, key b' ≠ key b := by
    intro b' hb' hkey
    obtain ⟨w, hw, -⟩ := h.kept b' hb'
    rw [hkey, hnone] at hw
    simp at hw
  refine h.put_of_counted ?_ (fun b' hb' hkey => ?_) fun b' hb' hkey => ?_
  · rw [Multiset.map_cons]
    exact h.counted.put_cons (by simp [hc, counter, hnone])
  · rcases Multiset.mem_cons.1 hb' with rfl | hb'
    · exact hbody
    · exact absurd hkey (hne b' hb')
  · rcases Multiset.mem_cons.1 hb' with rfl | hb'
    · exact absurd rfl hkey
    · exact hb'

theorem put_same (h : Owned t count body key owners) (hv : find? t k = some v)
    (hc : count v' = count v) (hbody : body v' = body v) :
    Owned (put t k v') count body key owners := by
  refine h.put_of_counted (h.counted.put_same hv hc) (fun b hb hkey => ?_) fun b hb _ => hb
  rw [hbody]
  exact h.body_eq hb (hkey.symm ▸ hv)

theorem put_pred (h : Owned t count body key (b ::ₘ owners)) (hv : find? t (key b) = some v)
    (hmany : ¬ count v ≤ 1) (hc : count v' = count v - 1) (hbody : body v' = b) :
    Owned (put t (key b) v') count body key owners := by
  have hcount := h.counted
  rw [Multiset.map_cons] at hcount
  refine h.put_of_counted (hcount.put_pred hv hmany hc) (fun b' hb' hkey => ?_) fun b' hb' _ =>
    Multiset.mem_cons_of_mem hb'
  rw [hbody]
  exact h.eq_of_key_eq (Multiset.mem_cons_self b owners) (Multiset.mem_cons_of_mem hb') hkey.symm

theorem erase_last (h : Owned t count body key (b ::ₘ owners)) (hv : find? t (key b) = some v)
    (hlast : count v ≤ 1) : Owned (erase t (key b)) count body key owners := by
  have hcount := h.counted
  rw [Multiset.map_cons] at hcount
  have herased := hcount.erase_last hv hlast
  refine ⟨herased, fun b' hb' => ?_⟩
  obtain ⟨w, hw, hbody⟩ := h.kept b' (Multiset.mem_cons_of_mem hb')
  obtain ⟨w', hw'⟩ := herased.exists_of_mem (Multiset.mem_map_of_mem key hb')
  refine ⟨w, ?_, hbody⟩
  rw [find?_erase] at hw' ⊢
  split at hw'
  · simp at hw'
  · next hne => rw [if_neg hne, hw]

end Owned

end PluginHost.Table
