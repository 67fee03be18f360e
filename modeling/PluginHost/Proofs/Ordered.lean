import Mathlib.Data.List.Basic
import Mathlib.Data.List.Induction
import PluginHost.Ordered

/-!
# Ordered names and maps

A set of names is listed in one way: two lists of the same names are in the same order. A map from names
answers for exactly the keys that were put into it.

* `Ordered.eq_of_sorted`, `Ordered.ofList_congr`: the same names give the same list.
* `Ordered.find?_put`: a look-up after a key is put.
* `Ordered.mem_keys_putAll`, `Ordered.isSome_find?_putAll`: the keys of pairs that are put.
* `Ordered.find?_putAll_eq_some_iff`: of equal keys the last is found.
* `Ordered.sorted_putAll`, `Ordered.putAll_of_sorted`: the keys are in order, and putting such pairs changes
  nothing.
* `Ordered.mem_putAll_iff`: no pair is lost when no key is put twice.
* `Ordered.find?_putAll_map_iff`: keys that are renamed, where several may get the same name.
-/

namespace PluginHost.Ordered

set_option autoImplicit false

/-! ## Sets of names -/

theorem sorted_insert {x : String} {ys : List String} (h : ys.Pairwise (· < ·)) :
    (insert x ys).Pairwise (· < ·) := by
  induction ys with
  | nil => exact List.pairwise_singleton _ x
  | cons y rest ih =>
    obtain ⟨hfirst, hrest⟩ := List.pairwise_cons.1 h
    unfold insert
    split
    · next hlt =>
      refine List.pairwise_cons.2 ⟨fun z hz => ?_, h⟩
      rcases List.mem_cons.1 hz with rfl | hz
      · exact hlt
      · exact String.lt_trans hlt (hfirst z hz)
    · next hge =>
      split
      · exact h
      · next hne =>
        refine List.pairwise_cons.2 ⟨fun z hz => ?_, ih hrest⟩
        rcases mem_insert.1 hz with rfl | hz
        · refine Decidable.byContradiction fun hnot => hne ?_
          exact String.le_antisymm (String.not_lt.1 hnot) (String.not_lt.1 hge)
        · exact hfirst z hz

theorem sorted_ofList (xs : List String) : (ofList xs).Pairwise (· < ·) := by
  induction xs with
  | nil => exact .nil
  | cons x rest ih => exact sorted_insert ih

/-- There is one way to list some things in the order of their names. -/
theorem eq_of_sorted {α : Type} (name : α → String) {xs ys : List α}
    (hx : xs.Pairwise fun a b => name a < name b) (hy : ys.Pairwise fun a b => name a < name b)
    (h : ∀ a, a ∈ xs ↔ a ∈ ys) : xs = ys := by
  have hnodup : ∀ {zs : List α}, (zs.Pairwise fun a b => name a < name b) → zs.Nodup := by
    refine fun hz => hz.imp fun hlt heq => ?_
    subst heq
    exact String.lt_irrefl _ hlt
  have hperm : xs.Perm ys := (List.perm_ext_iff_of_nodup (hnodup hx) (hnodup hy)).2 h
  exact hperm.eq_of_pairwise (fun a b _ _ hab hba => absurd hba (String.lt_asymm hab)) hx hy

/-- Lists of the same names have them in the same order. -/
theorem ofList_congr {xs ys : List String} (h : ∀ a, a ∈ xs ↔ a ∈ ys) : ofList xs = ofList ys :=
  eq_of_sorted id (sorted_ofList xs) (sorted_ofList ys) fun a => by
    rw [mem_ofList, mem_ofList]
    exact h a

/-! ## Maps from names -/

variable {ν : Type}

theorem find?_put (j k : String) (v : ν) (pairs : List (String × ν)) :
    find? j (put k v pairs) = if k = j then some v else find? j pairs := by
  induction pairs with
  | nil => simp [put, find?]
  | cons pair rest ih =>
    obtain ⟨k', v'⟩ := pair
    unfold put
    split
    · simp [find?]
    · split
      · next heq =>
        subst heq
        by_cases hj : k = j <;> simp [find?, hj]
      · next hne =>
        simp only [find?, ih]
        by_cases hk' : k' = j
        · have hk : k ≠ j := fun hk => hne (hk.trans hk'.symm)
          simp [hk', hk]
        · simp [hk']

theorem isSome_find?_iff {k : String} {pairs : List (String × ν)} :
    (find? k pairs).isSome = true ↔ k ∈ pairs.map Prod.fst := by
  induction pairs with
  | nil => simp [find?]
  | cons pair rest ih =>
    obtain ⟨k', v'⟩ := pair
    by_cases hk : k' = k
    · simp [find?, hk]
    · have hk' : ¬ k = k' := fun h => hk h.symm
      simp [find?, hk, hk', ih]

theorem isSome_find?_foldl_put {k : String} (pairs acc : List (String × ν)) :
    (find? k (pairs.foldl (fun acc p => put p.1 p.2 acc) acc)).isSome = true ↔
      k ∈ pairs.map Prod.fst ∨ (find? k acc).isSome = true := by
  induction pairs generalizing acc with
  | nil => simp
  | cons pair rest ih =>
    rw [List.foldl_cons, ih, find?_put, List.map_cons, List.mem_cons]
    by_cases hk : pair.1 = k
    · simp [hk]
    · have hk' : ¬ k = pair.1 := fun h => hk h.symm
      simp [hk, hk']

/-- A key is found exactly when a pair with it was put. -/
theorem isSome_find?_putAll {k : String} {pairs : List (String × ν)} :
    (find? k (putAll pairs)).isSome = true ↔ k ∈ pairs.map Prod.fst := by
  rw [putAll, isSome_find?_foldl_put]
  simp [find?]

theorem mem_keys_putAll {k : String} {pairs : List (String × ν)} :
    k ∈ (putAll pairs).map Prod.fst ↔ k ∈ pairs.map Prod.fst :=
  isSome_find?_iff.symm.trans isSome_find?_putAll

/-! ## Keys that are put twice -/

theorem putAll_concat (pairs : List (String × ν)) (p : String × ν) :
    putAll (pairs ++ [p]) = put p.1 p.2 (putAll pairs) := by
  rw [putAll, List.foldl_append]
  rfl

theorem find?_putAll (k : String) (pairs : List (String × ν)) :
    find? k (putAll pairs) = (pairs.reverse.find? fun p => p.1 == k).map Prod.snd := by
  induction pairs using List.reverseRecOn with
  | nil => rfl
  | append_singleton pairs p ih =>
    rw [putAll_concat, find?_put, ih, List.reverse_append, List.reverse_singleton, List.singleton_append]
    by_cases hk : p.1 = k
    · rw [if_pos hk, List.find?_cons_of_pos (by simpa using hk), Option.map_some]
    · rw [if_neg hk, List.find?_cons_of_neg (by simpa using hk)]

/-- What is found under a key is the value of the last pair with it. -/
theorem find?_putAll_eq_some_iff {k : String} {v : ν} {pairs : List (String × ν)} :
    find? k (putAll pairs) = some v ↔
      ∃ before after, pairs = before ++ (k, v) :: after ∧ k ∉ after.map Prod.fst := by
  rw [find?_putAll, Option.map_eq_some_iff]
  constructor
  · rintro ⟨p, hp, rfl⟩
    obtain ⟨hk, after, before, hpairs, hafter⟩ := List.find?_eq_some_iff_append.1 hp
    obtain rfl : p.1 = k := by simpa using hk
    refine ⟨before.reverse, after.reverse, ?_, ?_⟩
    · rw [← List.reverse_inj, hpairs]
      simp
    · intro hmem
      obtain ⟨q, hq, heq⟩ := List.mem_map.1 hmem
      simpa [heq] using hafter q (List.mem_reverse.1 hq)
  · rintro ⟨before, after, rfl, hafter⟩
    refine ⟨(k, v), List.find?_eq_some_iff_append.2 ⟨by simp, after.reverse, before.reverse, by simp, ?_⟩, rfl⟩
    intro q hq
    have hne : q.1 ≠ k := fun heq => hafter (List.mem_map.2 ⟨q, List.mem_reverse.1 hq, heq⟩)
    simpa using hne

/-! ## Keys in order -/

theorem mem_keys_put {j k : String} {v : ν} {pairs : List (String × ν)} :
    j ∈ (put k v pairs).map Prod.fst ↔ j = k ∨ j ∈ pairs.map Prod.fst := by
  rw [← isSome_find?_iff, ← isSome_find?_iff, find?_put]
  by_cases hk : k = j
  · simp [hk]
  · simp [hk, Ne.symm hk]

theorem sorted_put {k : String} {v : ν} {pairs : List (String × ν)}
    (h : (pairs.map Prod.fst).Pairwise (· < ·)) : ((put k v pairs).map Prod.fst).Pairwise (· < ·) := by
  induction pairs with
  | nil => exact List.pairwise_singleton _ k
  | cons pair rest ih =>
    obtain ⟨k', v'⟩ := pair
    obtain ⟨hfirst, hrest⟩ := List.pairwise_cons.1 h
    unfold put
    split
    · next hlt =>
      refine List.pairwise_cons.2 ⟨fun j hj => ?_, h⟩
      rcases List.mem_cons.1 hj with rfl | hj
      · exact hlt
      · exact String.lt_trans hlt (hfirst j hj)
    · next hge =>
      split
      · exact h
      · next hne =>
        refine List.pairwise_cons.2 ⟨fun j hj => ?_, ih hrest⟩
        rcases mem_keys_put.1 hj with rfl | hj
        · refine Decidable.byContradiction fun hnot => hne ?_
          exact String.le_antisymm (String.not_lt.1 hnot) (String.not_lt.1 hge)
        · exact hfirst j hj

theorem sorted_putAll (pairs : List (String × ν)) : ((putAll pairs).map Prod.fst).Pairwise (· < ·) := by
  induction pairs using List.reverseRecOn with
  | nil => exact .nil
  | append_singleton pairs p ih =>
    rw [putAll_concat]
    exact sorted_put ih

theorem put_of_lt {k : String} {v : ν} {pairs : List (String × ν)} (h : ∀ j ∈ pairs.map Prod.fst, j < k) :
    put k v pairs = pairs ++ [(k, v)] := by
  induction pairs with
  | nil => rfl
  | cons pair rest ih =>
    obtain ⟨k', v'⟩ := pair
    have hlt : k' < k := h k' (by simp)
    have hne : ¬ k = k' := fun heq => String.lt_irrefl _ (heq ▸ hlt)
    rw [put, if_neg (String.lt_asymm hlt), if_neg hne, ih fun j hj => h j (List.mem_cons_of_mem _ hj)]
    rfl

theorem putAll_of_sorted {pairs : List (String × ν)} (h : (pairs.map Prod.fst).Pairwise (· < ·)) :
    putAll pairs = pairs := by
  induction pairs using List.reverseRecOn with
  | nil => rfl
  | append_singleton pairs p ih =>
    rw [List.map_append, List.pairwise_append] at h
    obtain ⟨hpairs, -, hlast⟩ := h
    rw [putAll_concat, ih hpairs, put_of_lt fun j hj => hlast j hj p.1 (by simp)]

theorem mem_iff_find?_of_sorted {k : String} {v : ν} {pairs : List (String × ν)}
    (h : (pairs.map Prod.fst).Pairwise (· < ·)) : (k, v) ∈ pairs ↔ find? k pairs = some v := by
  induction pairs with
  | nil => simp [find?]
  | cons pair rest ih =>
    obtain ⟨k', v'⟩ := pair
    obtain ⟨hfirst, hrest⟩ := List.pairwise_cons.1 h
    rw [List.mem_cons, ih hrest, find?]
    by_cases hk : k' = k
    · subst hk
      have hnone : find? k' rest ≠ some v := fun hv => by
        have hmem : k' ∈ rest.map Prod.fst := isSome_find?_iff.1 (by rw [hv]; rfl)
        exact String.lt_irrefl _ (hfirst k' hmem)
      simp [hnone, eq_comm]
    · simp [hk, Ne.symm hk]

/-- When no key is put twice, what is there is what was put. -/
theorem mem_putAll_iff {k : String} {v : ν} {pairs : List (String × ν)} (h : (pairs.map Prod.fst).Nodup) :
    (k, v) ∈ putAll pairs ↔ (k, v) ∈ pairs := by
  rw [mem_iff_find?_of_sorted (sorted_putAll pairs), find?_putAll_eq_some_iff]
  constructor
  · rintro ⟨before, after, rfl, -⟩
    simp
  · intro hmem
    obtain ⟨before, after, rfl⟩ := List.append_of_mem hmem
    rw [List.map_append, List.map_cons] at h
    exact ⟨before, after, rfl, (List.nodup_cons.1 (List.nodup_append.1 h).2.1).1⟩

/-- Among keys in order that are given new names, of those with the same name the greatest is found. -/
theorem find?_putAll_map_iff {f : String → String} {n : String} {v : ν} {pairs : List (String × ν)}
    (h : (pairs.map Prod.fst).Pairwise (· < ·)) :
    find? n (putAll (pairs.map fun e => (f e.1, e.2))) = some v ↔
      ∃ k, (k, v) ∈ pairs ∧ f k = n ∧ ∀ e ∈ pairs, f e.1 = n → e.1 ≤ k := by
  rw [find?_putAll_eq_some_iff]
  constructor
  · rintro ⟨before, after, heq, hafter⟩
    obtain ⟨first, rest, rfl, -, hrest⟩ := List.map_eq_append_iff.1 heq
    obtain ⟨⟨k, v'⟩, last, rfl, hhere, rfl⟩ := List.map_eq_cons_iff.1 hrest
    obtain ⟨hname, rfl⟩ := Prod.mk.inj hhere
    refine ⟨k, by simp, hname, fun e he hsame => ?_⟩
    rw [List.map_append, List.pairwise_append] at h
    rcases List.mem_append.1 he with he | he
    · have hlt := h.2.2 e.1 (List.mem_map_of_mem he) k (by simp)
      exact String.not_lt.1 (String.lt_asymm hlt)
    · rcases List.mem_cons.1 he with rfl | he
      · exact String.le_refl _
      · refine absurd (List.mem_map.2 ⟨(f e.1, e.2), ?_, hsame⟩) hafter
        exact List.mem_map_of_mem he
  · rintro ⟨k, hmem, rfl, hgreatest⟩
    obtain ⟨first, last, rfl⟩ := List.append_of_mem hmem
    refine ⟨_, _, by rw [List.map_append, List.map_cons], fun hagain => ?_⟩
    simp only [List.map_map, List.mem_map, Function.comp_apply] at hagain
    obtain ⟨e, he, hsame⟩ := hagain
    rw [List.map_append, List.pairwise_append] at h
    have hlt := (List.pairwise_cons.1 h.2.1).1 e.1 (List.mem_map_of_mem he)
    have hle := hgreatest e (by simp [he]) hsame
    exact String.not_lt.2 hle hlt

end PluginHost.Ordered
