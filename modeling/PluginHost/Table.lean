/-!
# Tables

A table is a list of keys with their values. Keys are compared by `==`, which need not be equality:
two paths with the same parts are one key. A table built by `put` holds each key once.

* `Table.find?`, `Table.contains`: look-up.
* `Table.put`: adds a key, or replaces the value of a key that is there.
* `Table.erase`: removes a key.
-/

namespace PluginHost

set_option autoImplicit false

/-- Keys with their values, in the order in which the keys came. -/
abbrev Table (κ ν : Type) := List (κ × ν)

namespace Table

variable {κ ν : Type} [BEq κ]

/-! ## Operations -/

def find? (t : Table κ ν) (k : κ) : Option ν :=
  match t with
  | [] => none
  | (k', v) :: rest => if k' == k then some v else find? rest k

def contains (t : Table κ ν) (k : κ) : Bool := (find? t k).isSome

/-- Gives `k` the value `v`; a key that is there keeps its place and spelling. -/
def put (t : Table κ ν) (k : κ) (v : ν) : Table κ ν :=
  match t with
  | [] => [(k, v)]
  | (k', v') :: rest => if k' == k then (k', v) :: rest else (k', v') :: put rest k v

def erase (t : Table κ ν) (k : κ) : Table κ ν := t.filter fun e => !(e.1 == k)

def values (t : Table κ ν) : List ν := t.map Prod.snd

def keys (t : Table κ ν) : List κ := t.map Prod.fst

/-! ## Look-up after an operation -/

@[simp] theorem find?_nil (k : κ) : find? ([] : Table κ ν) k = none := rfl

theorem find?_congr [EquivBEq κ] (t : Table κ ν) {j k : κ} (h : (j == k) = true) :
    find? t j = find? t k := by
  induction t with
  | nil => rfl
  | cons e rest ih =>
    obtain ⟨k', v'⟩ := e
    have hsame : (k' == j) = (k' == k) := BEq.congr_right h
    simp only [find?, hsame, ih]

theorem find?_put [EquivBEq κ] (t : Table κ ν) (j k : κ) (v : ν) :
    find? (put t k v) j = if k == j then some v else find? t j := by
  induction t with
  | nil => simp [put, find?]
  | cons e rest ih =>
    obtain ⟨k', v'⟩ := e
    by_cases hk : (k' == k) = true
    · have hj : (k' == j) = (k == j) := BEq.congr_left hk
      by_cases h : (k == j) = true <;> simp [put, find?, hk, hj, h]
    · by_cases hj : (k' == j) = true
      · have h : ¬ (k == j) = true := fun h => hk (BEq.trans hj (BEq.symm h))
        simp [put, find?, hk, hj, h]
      · simp [put, find?, hk, hj, ih]

@[simp] theorem find?_put_self [EquivBEq κ] (t : Table κ ν) (k : κ) (v : ν) :
    find? (put t k v) k = some v := by
  simp [find?_put]

theorem find?_put_of_ne [LawfulBEq κ] (t : Table κ ν) {j k : κ} (v : ν) (h : j ≠ k) :
    find? (put t k v) j = find? t j := by
  simp [find?_put, Ne.symm h]

theorem find?_erase [EquivBEq κ] (t : Table κ ν) (j k : κ) :
    find? (erase t k) j = if k == j then none else find? t j := by
  induction t with
  | nil => simp [erase]
  | cons e rest ih =>
    obtain ⟨k', v'⟩ := e
    have hrest : erase ((k', v') :: rest) k =
        if k' == k then erase rest k else (k', v') :: erase rest k := by
      by_cases hk : (k' == k) = true <;> simp [erase, hk]
    rw [hrest]
    by_cases hk : (k' == k) = true
    · have hj : (k' == j) = (k == j) := BEq.congr_left hk
      by_cases h : (k == j) = true <;> simp [find?, hk, hj, h, ih]
    · by_cases hj : (k' == j) = true
      · have h : ¬ (k == j) = true := fun h => hk (BEq.trans hj (BEq.symm h))
        simp [find?, hk, hj, h]
      · simp [find?, hk, hj, ih]

@[simp] theorem find?_erase_self [EquivBEq κ] (t : Table κ ν) (k : κ) :
    find? (erase t k) k = none := by
  simp [find?_erase]

end Table

end PluginHost
