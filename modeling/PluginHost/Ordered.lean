/-!
# Ordered names

Names are listed in the order of their code points, which is also the order of their UTF-8 octets.

* `Ordered.insert`: one more name in a list that is in order; a name that is there stays once.
* `Ordered.ofList`: the names of a list, in order and without repetitions.
* `Ordered.put`: a key with its value in a list of pairs whose keys are in order.
* `Ordered.putAll`: pairs put one after the other, so that the last of equal keys stays.
-/

namespace PluginHost.Ordered

set_option autoImplicit false

/-! ## Sets of names -/

/-- Puts `x` in its place among names that are in order. -/
def insert (x : String) : List String → List String
  | [] => [x]
  | y :: rest => if x < y then x :: y :: rest else if x = y then y :: rest else y :: insert x rest

/-- The names of a list, in order and once each. -/
def ofList (xs : List String) : List String := xs.foldr insert []

@[simp] theorem mem_insert {a x : String} {ys : List String} :
    a ∈ insert x ys ↔ a = x ∨ a ∈ ys := by
  induction ys with
  | nil => simp [insert]
  | cons y rest ih =>
    unfold insert
    split
    · simp
    · split
      · next h => subst h; simp
      · simp only [List.mem_cons, ih]
        constructor
        · rintro (h | h | h) <;> simp [h]
        · rintro (h | h | h) <;> simp [h]

@[simp] theorem mem_ofList {a : String} {xs : List String} : a ∈ ofList xs ↔ a ∈ xs := by
  induction xs with
  | nil => simp [ofList]
  | cons x rest ih =>
    have : ofList (x :: rest) = insert x (ofList rest) := rfl
    simp [this, ih]

/-! ## Maps from names -/

variable {ν : Type}

/-- Puts `k` with its value in its place among keys that are in order. -/
def put (k : String) (v : ν) : List (String × ν) → List (String × ν)
  | [] => [(k, v)]
  | (k', v') :: rest =>
    if k < k' then (k, v) :: (k', v') :: rest
    else if k = k' then (k', v) :: rest
    else (k', v') :: put k v rest

/-- The pairs put one after the other: of equal keys the last stays. -/
def putAll (pairs : List (String × ν)) : List (String × ν) :=
  pairs.foldl (fun acc p => put p.1 p.2 acc) []

def find? (k : String) : List (String × ν) → Option ν
  | [] => none
  | (k', v) :: rest => if k' = k then some v else find? k rest

end PluginHost.Ordered
