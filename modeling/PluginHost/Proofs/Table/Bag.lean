import Mathlib.Data.Multiset.Bind
import Mathlib.Data.Multiset.Filter
import PluginHost.Table

/-!
# The contents of a table

A table whose keys differ holds a bag of values, and its operations put values into the bag or take
them out. What is counted over a table is counted over its bag.

* `Table.Distinct`: no two entries of a table have the same key.
* `Table.bag`: the values of a table, in no order.
* `Table.bag_put`, `Table.bag_of_find?`: what an operation does to the bag.
-/

namespace PluginHost.Table

set_option autoImplicit false

variable {κ ν : Type}

/-! ## The bag of values -/

def bag (t : Table κ ν) : Multiset ν := ↑(values t)

@[simp] theorem mem_bag {t : Table κ ν} {v : ν} : v ∈ bag t ↔ v ∈ values t := Multiset.mem_coe

@[simp] theorem bag_nil : bag ([] : Table κ ν) = 0 := rfl

@[simp] theorem bag_cons (e : κ × ν) (t : Table κ ν) : bag (e :: t : List (κ × ν)) = e.2 ::ₘ bag t :=
  rfl

/-- The values that are filtered out and those that stay are all of the bag. -/
theorem bag_filter_add (t : Table κ ν) (p : ν → Bool) :
    ↑((values t).filter p) + bag (t.filter fun e => !p e.2 : List (κ × ν)) = bag t := by
  induction t with
  | nil => rfl
  | cons e rest ih =>
    have hvalues : values (e :: rest : List (κ × ν)) = e.2 :: values rest := rfl
    rw [hvalues, bag_cons, ← ih]
    cases hp : p e.2 with
    | true =>
      rw [List.filter_cons_of_pos hp, List.filter_cons_of_neg (by simp [hp]), ← Multiset.cons_coe,
        Multiset.cons_add]
    | false =>
      rw [List.filter_cons_of_neg (by simp [hp]), List.filter_cons_of_pos (by simp [hp]), bag_cons,
        Multiset.add_cons]

variable [BEq κ]

/-! ## Distinct keys -/

def Distinct (t : Table κ ν) : Prop := t.Pairwise fun a b => (a.1 == b.1) = false

theorem distinct_nil : Distinct ([] : Table κ ν) := List.Pairwise.nil

theorem Distinct.filter {t : Table κ ν} (h : Distinct t) (p : κ × ν → Bool) :
    Distinct (t.filter p : List (κ × ν)) :=
  List.Pairwise.filter p h

theorem Distinct.erase {t : Table κ ν} (h : Distinct t) (k : κ) : Distinct (erase t k) :=
  h.filter _

/-- The keys after `put` are the keys before, and `k` if it was not there. -/
theorem mem_put {t : Table κ ν} {k : κ} {v : ν} {e : κ × ν} (he : e ∈ put t k v) :
    e = (k, v) ∨ (∃ v', (e.1, v') ∈ t) := by
  induction t with
  | nil => simp [put] at he; exact .inl he
  | cons a rest ih =>
    obtain ⟨k', v'⟩ := a
    by_cases hk : (k' == k) = true
    · simp only [put, hk, if_true, List.mem_cons] at he
      rcases he with rfl | he
      · exact .inr ⟨v', by simp⟩
      · exact .inr ⟨e.2, by simp [he]⟩
    · simp only [put, hk, Bool.false_eq_true, if_false, List.mem_cons] at he
      rcases he with rfl | he
      · exact .inr ⟨v', by simp⟩
      · rcases ih he with h | ⟨w, hw⟩
        · exact .inl h
        · exact .inr ⟨w, by simp [hw]⟩

/-- An entry after `put` is that of `k` with its new value, or was there before. -/
theorem eq_or_mem_of_mem_put [EquivBEq κ] {t : Table κ ν} {k : κ} {v : ν} {e : κ × ν}
    (he : e ∈ put t k v) : ((e.1 == k) = true ∧ e.2 = v) ∨ e ∈ t := by
  induction t with
  | nil =>
    obtain rfl : e = (k, v) := by simpa [put] using he
    exact .inl ⟨BEq.rfl, rfl⟩
  | cons a rest ih =>
    obtain ⟨k', v'⟩ := a
    by_cases hk : (k' == k) = true
    · simp only [put, hk, if_true, List.mem_cons] at he
      rcases he with rfl | he
      · exact .inl ⟨hk, rfl⟩
      · exact .inr (List.mem_cons_of_mem _ he)
    · simp only [put, hk, Bool.false_eq_true, if_false, List.mem_cons] at he
      rcases he with rfl | he
      · exact .inr List.mem_cons_self
      · rcases ih he with h | h
        · exact .inl h
        · exact .inr (List.mem_cons_of_mem _ h)

theorem Distinct.put {t : Table κ ν} (h : Distinct t) (k : κ) (v : ν) : Distinct (put t k v) := by
  induction t with
  | nil => simp [Table.put, Distinct]
  | cons a rest ih =>
    obtain ⟨k', v'⟩ := a
    have hrest := List.pairwise_cons.1 h
    by_cases hk : (k' == k) = true
    · simp only [Table.put, hk, if_true]
      exact List.pairwise_cons.2 ⟨hrest.1, hrest.2⟩
    · simp only [Table.put, hk, Bool.false_eq_true, if_false]
      refine List.pairwise_cons.2 ⟨?_, ih hrest.2⟩
      intro e he
      rcases mem_put he with rfl | ⟨w, hw⟩
      · simpa using hk
      · exact hrest.1 (e.1, w) hw

/-! ## Values and look-up -/

theorem exists_mem_of_find? {t : Table κ ν} {k : κ} {v : ν} (h : find? t k = some v) :
    ∃ k', (k', v) ∈ t ∧ (k' == k) = true := by
  induction t with
  | nil => simp at h
  | cons a rest ih =>
    obtain ⟨k', v'⟩ := a
    by_cases hk : (k' == k) = true
    · simp only [find?, hk, if_true, Option.some.injEq] at h
      exact ⟨k', by simp [h], hk⟩
    · simp only [find?, hk, Bool.false_eq_true, if_false] at h
      obtain ⟨k₀, hmem, hk₀⟩ := ih h
      exact ⟨k₀, List.mem_cons_of_mem _ hmem, hk₀⟩

theorem mem_values_of_find? {t : Table κ ν} {k : κ} {v : ν} (h : find? t k = some v) :
    v ∈ values t := by
  obtain ⟨k', hmem, -⟩ := exists_mem_of_find? h
  exact List.mem_map_of_mem hmem

theorem find?_of_mem [ReflBEq κ] [PartialEquivBEq κ] {t : Table κ ν} (hd : Distinct t) {k : κ} {v : ν}
    (h : (k, v) ∈ t) : find? t k = some v := by
  induction t with
  | nil => simp at h
  | cons a rest ih =>
    obtain ⟨k', v'⟩ := a
    have hrest := List.pairwise_cons.1 hd
    rcases List.mem_cons.1 h with h | h
    · obtain ⟨rfl, rfl⟩ := Prod.mk.inj h
      simp [find?]
    · have hk : (k' == k) = false := hrest.1 (k, v) h
      simp [find?, hk, ih hrest.2 h]

theorem exists_find?_of_mem_values [ReflBEq κ] [PartialEquivBEq κ] {t : Table κ ν}
    (hd : Distinct t) {v : ν} (h : v ∈ values t) : ∃ k, find? t k = some v := by
  obtain ⟨e, he, rfl⟩ := List.mem_map.1 h
  exact ⟨e.1, find?_of_mem hd he⟩

theorem mem_bag_iff_find? [ReflBEq κ] [PartialEquivBEq κ] {t : Table κ ν} (hd : Distinct t) {v : ν} :
    v ∈ bag t ↔ ∃ k, find? t k = some v := by
  constructor
  · intro hv
    exact exists_find?_of_mem_values hd (mem_bag.1 hv)
  · rintro ⟨k, hk⟩
    exact mem_bag.2 (mem_values_of_find? hk)

/-- Values that tell their keys are different. -/
theorem nodup_map_bag [LawfulBEq κ] {μ : Type} {t : Table κ ν} (hd : Distinct t) (f : ν → μ) {g : μ → κ}
    (hkey : ∀ k v, find? t k = some v → g (f v) = k) : ((bag t).map f).Nodup := by
  have hkeys : t.Pairwise fun a b => f a.2 ≠ f b.2 := by
    refine List.Pairwise.imp_of_mem (fun {a b} ha hb hne heq => ?_) hd
    have hab := (hkey a.1 a.2 (find?_of_mem hd ha)).symm.trans
      ((congrArg g heq).trans (hkey b.1 b.2 (find?_of_mem hd hb)))
    simp [hab] at hne
  rw [bag, Multiset.map_coe, Multiset.coe_nodup]
  exact List.pairwise_map.2 (List.pairwise_map.2 hkeys)

theorem find?_eq_none_iff {t : Table κ ν} {k : κ} :
    find? t k = none ↔ ∀ e ∈ t, (e.1 == k) = false := by
  induction t with
  | nil => simp
  | cons a rest ih =>
    obtain ⟨k', v'⟩ := a
    by_cases hk : (k' == k) = true
    · simp [find?, hk]
    · simp [find?, hk, ih]

theorem find?_tail_eq_none [EquivBEq κ] {k k' : κ} {v : ν} {rest : Table κ ν}
    (hd : Distinct ((k', v) :: rest)) (hk : (k' == k) = true) : find? rest k = none := by
  refine find?_eq_none_iff.2 fun e he => ?_
  have hne : (k' == e.1) = false := (List.pairwise_cons.1 hd).1 e he
  rw [BEq.comm, ← BEq.congr_left hk]
  exact hne

/-- Looking into a table whose values are filtered is filtering what is found. -/
theorem find?_filter [EquivBEq κ] {t : Table κ ν} (hd : Distinct t) (p : ν → Bool) (k : κ) :
    find? (t.filter fun e => p e.2 : List (κ × ν)) k = (find? t k).filter p := by
  induction t with
  | nil => rfl
  | cons a rest ih =>
    obtain ⟨k', v'⟩ := a
    have ih' := ih (List.pairwise_cons.1 hd).2
    by_cases hk : (k' == k) = true
    · rw [find?_tail_eq_none hd hk] at ih'
      cases hp : p v' <;> simp [find?, hk, hp, ih', Option.filter]
    · cases hp : p v' <;> simp [find?, hk, hp, ih']

theorem erase_of_find?_eq_none {t : Table κ ν} {k : κ} (h : find? t k = none) : erase t k = t := by
  refine List.filter_eq_self.2 fun e he => ?_
  simp [find?_eq_none_iff.1 h e he]

theorem erase_cons_of_beq [EquivBEq κ] {k k' : κ} {v : ν} {rest : Table κ ν}
    (hd : Distinct ((k', v) :: rest)) (hk : (k' == k) = true) : erase ((k', v) :: rest) k = rest := by
  have hrest : erase rest k = rest := erase_of_find?_eq_none (find?_tail_eq_none hd hk)
  simpa [erase, hk] using hrest

theorem erase_cons_of_not_beq {k k' : κ} (v : ν) (rest : Table κ ν) (hk : ¬ (k' == k) = true) :
    erase ((k', v) :: rest) k = (k', v) :: erase rest k := by
  simp [erase, hk]

/-! ## Putting what is put again, and taking it out -/

theorem put_put [EquivBEq κ] (t : Table κ ν) (k : κ) (v v' : ν) : put (put t k v) k v' = put t k v' := by
  induction t with
  | nil => simp [put]
  | cons a rest ih =>
    obtain ⟨k', w⟩ := a
    by_cases hk : (k' == k) = true
    · simp [put, hk]
    · simp [put, hk, ih]

theorem put_of_find? [EquivBEq κ] {t : Table κ ν} {k : κ} {v : ν} (h : find? t k = some v) :
    put t k v = t := by
  induction t with
  | nil => simp at h
  | cons a rest ih =>
    obtain ⟨k', w⟩ := a
    by_cases hk : (k' == k) = true
    · simp only [find?, hk, if_true, Option.some.injEq] at h
      simp [put, hk, h]
    · simp only [find?, hk, Bool.false_eq_true, if_false] at h
      simp [put, hk, ih h]

theorem erase_put [EquivBEq κ] (t : Table κ ν) (k : κ) (v : ν) : erase (put t k v) k = erase t k := by
  induction t with
  | nil => simp [put, erase]
  | cons a rest ih =>
    obtain ⟨k', w⟩ := a
    by_cases hk : (k' == k) = true
    · simp [put, erase, hk]
    · have hput : put ((k', w) :: rest) k v = (k', w) :: put rest k v := by simp [put, hk]
      rw [hput, erase_cons_of_not_beq _ _ hk, erase_cons_of_not_beq _ _ hk, ih]

/-- Putting a value in place of a related one gives a table that is related line by line. -/
theorem forall₂_put [LawfulBEq κ] {R : ν → ν → Prop} (hrefl : ∀ v, R v v) {t : Table κ ν} {k : κ}
    {v v' : ν} (h : find? t k = some v) (hv : R v v') :
    List.Forall₂ (fun e e' : κ × ν => e.1 = e'.1 ∧ R e.2 e'.2) t (put t k v') := by
  induction t with
  | nil => simp at h
  | cons a rest ih =>
    obtain ⟨k', w⟩ := a
    by_cases hk : (k' == k) = true
    · simp only [find?, hk, if_true, Option.some.injEq] at h
      subst h
      simp only [put, hk, if_true]
      exact .cons ⟨rfl, hv⟩ (List.forall₂_same.2 fun e _ => ⟨rfl, hrefl e.2⟩)
    · simp only [find?, hk, Bool.false_eq_true, if_false] at h
      simp only [put, hk, Bool.false_eq_true, if_false]
      exact .cons ⟨rfl, hrefl w⟩ (ih h)

/-- Putting a value in place of one that a search does not tell from it does not change what is found. -/
theorem map_find?_put [EquivBEq κ] {μ : Type} {t : Table κ ν} {k : κ} {v v' : ν} {p : ν → Bool} {f : ν → μ}
    (h : find? t k = some v) (hp : p v' = p v) (hf : f v' = f v) :
    (List.find? (fun e => p e.2) (put t k v')).map (fun e => f e.2) =
      (List.find? (fun e => p e.2) t).map fun e => f e.2 := by
  induction t with
  | nil => simp at h
  | cons a rest ih =>
    obtain ⟨k', w⟩ := a
    by_cases hk : (k' == k) = true
    · simp only [find?, hk, if_true, Option.some.injEq] at h
      subst h
      simp only [put, hk, if_true, List.find?_cons, hp]
      split
      · exact congrArg some hf
      · rfl
    · simp only [find?, hk, Bool.false_eq_true, if_false] at h
      simp only [put, hk, Bool.false_eq_true, if_false, List.find?_cons]
      split
      · rfl
      · exact ih h

/-! ## What operations do to the bag -/

theorem bag_put [EquivBEq κ] {t : Table κ ν} (hd : Distinct t) (k : κ) (v : ν) :
    bag (put t k v) = v ::ₘ bag (erase t k) := by
  induction t with
  | nil => rfl
  | cons a rest ih =>
    obtain ⟨k', v'⟩ := a
    by_cases hk : (k' == k) = true
    · rw [erase_cons_of_beq hd hk]
      simp [put, hk]
    · rw [erase_cons_of_not_beq v' rest hk]
      simp only [put, hk, Bool.false_eq_true, if_false, bag_cons, ih (List.pairwise_cons.1 hd).2]
      exact Multiset.cons_swap _ _ _

theorem bag_of_find? [EquivBEq κ] {t : Table κ ν} (hd : Distinct t) {k : κ} {v : ν}
    (h : find? t k = some v) : bag t = v ::ₘ bag (erase t k) := by
  induction t with
  | nil => simp at h
  | cons a rest ih =>
    obtain ⟨k', v'⟩ := a
    by_cases hk : (k' == k) = true
    · rw [erase_cons_of_beq hd hk]
      simp only [find?, hk, if_true, Option.some.injEq] at h
      simp [h]
    · rw [erase_cons_of_not_beq v' rest hk]
      simp only [find?, hk, Bool.false_eq_true, if_false] at h
      rw [bag_cons, bag_cons, ih (List.pairwise_cons.1 hd).2 h]
      exact Multiset.cons_swap _ _ _

/-- Replacing a value by one that looks the same does not change how the bag looks. -/
theorem map_bag_put [EquivBEq κ] {μ : Type} {t : Table κ ν} (hd : Distinct t) (f : ν → μ) {k : κ}
    {v v' : ν} (h : find? t k = some v) (hf : f v' = f v) :
    (bag (put t k v')).map f = (bag t).map f := by
  rw [bag_put hd, bag_of_find? hd h, Multiset.map_cons, Multiset.map_cons, hf]

theorem bag_put_of_find?_eq_none [EquivBEq κ] {t : Table κ ν} (hd : Distinct t) {k : κ} (v : ν)
    (h : find? t k = none) : bag (put t k v) = v ::ₘ bag t := by
  rw [bag_put hd, erase_of_find?_eq_none h]

end PluginHost.Table
