import PluginHost.Proofs.Table.Bag

/-!
# Several entries at once

Entries are put into a table one after the other, and of entries with equal keys the last one stays. Putting
them again changes nothing. A table can also be seen through a function of its values, and putting entries
does not tell the difference.

* `Table.putEach`: entries put one after the other.
* `Table.find?_putEach`: what is found then.
* `Table.putEach_putEach`: putting them twice.
* `Table.mapValues`: a table seen through a function.
-/

namespace PluginHost.Table

set_option autoImplicit false

variable {κ ν μ : Type} [BEq κ]

/-! ## Entries put one after the other -/

def putEach (t : Table κ ν) (es : List (κ × ν)) : Table κ ν := es.foldl (fun t e => t.put e.1 e.2) t

theorem putEach_append (t : Table κ ν) (es es' : List (κ × ν)) :
    putEach t (es ++ es') = putEach (putEach t es) es' := List.foldl_append

/-- The last entry with the key is found, or else what was there before. -/
theorem find?_putEach [EquivBEq κ] (t : Table κ ν) (es : List (κ × ν)) (k : κ) :
    find? (putEach t es) k = ((es.reverse.find? fun e => e.1 == k).map Prod.snd).or (find? t k) := by
  induction es generalizing t with
  | nil => rfl
  | cons e es ih =>
    have hstep : putEach t (e :: es) = putEach (put t e.1 e.2) es := rfl
    rw [hstep, ih, find?_put, List.reverse_cons, List.find?_append]
    cases es.reverse.find? fun e => e.1 == k with
    | some last => rfl
    | none => by_cases hk : (e.1 == k) = true <;> simp [hk]

theorem Distinct.putEach {t : Table κ ν} (hd : Distinct t) (es : List (κ × ν)) :
    Distinct (putEach t es) := by
  induction es generalizing t with
  | nil => exact hd
  | cons e es ih => exact ih (hd.put e.1 e.2)

/-! ## Putting the same again -/

theorem keys_put_of_find? {t : Table κ ν} {k : κ} {v : ν} (h : find? t k = some v) (v' : ν) :
    keys (put t k v') = keys t := by
  induction t with
  | nil => simp at h
  | cons a rest ih =>
    obtain ⟨k', w⟩ := a
    by_cases hk : (k' == k) = true
    · simp [put, hk, keys]
    · simp only [find?, hk, Bool.false_eq_true, if_false] at h
      have hrest := ih h
      simp only [keys] at hrest
      simp [put, hk, keys, hrest]

/-- Keys that are there stay as they are. -/
theorem keys_putEach [EquivBEq κ] {t : Table κ ν} {es : List (κ × ν)}
    (h : ∀ e ∈ es, ∃ v, find? t e.1 = some v) : keys (putEach t es) = keys t := by
  induction es generalizing t with
  | nil => rfl
  | cons e es ih =>
    obtain ⟨v, hv⟩ := h e List.mem_cons_self
    refine (ih fun e' he' => ?_).trans (keys_put_of_find? hv e.2)
    obtain ⟨v', hv'⟩ := h e' (List.mem_cons_of_mem e he')
    rw [find?_put]
    split
    · exact ⟨e.2, rfl⟩
    · exact ⟨v', hv'⟩

/-- Tables with the same keys in the same order are equal when the same is found in them. -/
theorem ext_of_keys [EquivBEq κ] {t t' : Table κ ν} (hd : Distinct t) (hd' : Distinct t')
    (hkeys : keys t' = keys t) (h : ∀ k, find? t' k = find? t k) : t' = t := by
  induction t generalizing t' with
  | nil => exact List.map_eq_nil_iff.1 hkeys
  | cons a rest ih =>
    obtain ⟨k, v⟩ := a
    obtain ⟨⟨k', v'⟩, rest', rfl, rfl, hrest⟩ := List.map_eq_cons_iff.1 hkeys
    have hv : v' = v := by simpa [find?] using h k'
    have hfind : ∀ j, find? rest' j = find? rest j := by
      intro j
      by_cases hj : (k' == j) = true
      · rw [find?_tail_eq_none hd hj, find?_tail_eq_none hd' hj]
      · simpa [find?, hj] using h j
    rw [hv, ih (List.pairwise_cons.1 hd).2 (List.pairwise_cons.1 hd').2 hrest hfind]

theorem putEach_putEach [EquivBEq κ] {t : Table κ ν} (hd : Distinct t) (es : List (κ × ν)) :
    putEach (putEach t es) es = putEach t es := by
  have hfound : ∀ e ∈ es, ∃ v, find? (putEach t es) e.1 = some v := by
    intro e he
    rw [find?_putEach]
    cases hlast : es.reverse.find? fun e' => e'.1 == e.1 with
    | some last => exact ⟨last.2, rfl⟩
    | none =>
      have hno := List.find?_eq_none.1 hlast e (List.mem_reverse.2 he)
      exact absurd BEq.rfl hno
  refine ext_of_keys (hd.putEach es) ((hd.putEach es).putEach es) (keys_putEach hfound) fun k => ?_
  rw [find?_putEach (putEach t es), find?_putEach t]
  cases (es.reverse.find? fun e => e.1 == k) <;> simp

/-! ## Values seen through a function -/

def mapValues (f : ν → μ) (t : Table κ ν) : Table κ μ := t.map fun e => (e.1, f e.2)

theorem find?_mapValues (f : ν → μ) (t : Table κ ν) (k : κ) :
    find? (mapValues f t) k = (find? t k).map f := by
  induction t with
  | nil => rfl
  | cons a rest ih =>
    obtain ⟨k', v⟩ := a
    by_cases hk : (k' == k) = true
    · simp [mapValues, find?, hk]
    · simpa [mapValues, find?, hk] using ih

theorem mapValues_put (f : ν → μ) (t : Table κ ν) (k : κ) (v : ν) :
    mapValues f (put t k v) = put (mapValues f t) k (f v) := by
  induction t with
  | nil => rfl
  | cons a rest ih =>
    obtain ⟨k', v'⟩ := a
    by_cases hk : (k' == k) = true
    · simp [mapValues, put, hk]
    · simpa [mapValues, put, hk] using ih

theorem mapValues_putEach (f : ν → μ) (t : Table κ ν) (es : List (κ × ν)) :
    mapValues f (putEach t es) = putEach (mapValues f t) (es.map fun e => (e.1, f e.2)) := by
  induction es generalizing t with
  | nil => rfl
  | cons e es ih =>
    have hstep := ih (put t e.1 e.2)
    rw [mapValues_put] at hstep
    exact hstep

theorem Distinct.mapValues {t : Table κ ν} (hd : Distinct t) (f : ν → μ) :
    Distinct (mapValues f t) := List.pairwise_map.2 hd

end PluginHost.Table
