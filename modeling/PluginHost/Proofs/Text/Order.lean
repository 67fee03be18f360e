import PluginHost.Proofs.Text.Utf8

/-!
# The order of strings and of their octets

Strings are compared by their code points. Their octets come in the same order: a character that takes more
octets starts with a larger one, and of two characters that take equally many the smaller one has the smaller
octet where they first differ.

* `Utf8.utf8EncodeChar_append_lt`: the order of characters.
* `Utf8.encode_lt_encode_iff`, `Utf8.encode_le_encode_iff`: the order of strings.
-/

namespace PluginHost.Text.Utf8

set_option autoImplicit false

open String (utf8EncodeChar)

/-! ## Octets -/

section

variable {a b : Nat} {as bs : List UInt8}

theorem ofNat_cons_lt (hlt : a < b) (hb : b < 256) : UInt8.ofNat a :: as < UInt8.ofNat b :: bs := by
  refine List.cons_lt_cons_iff.2 (.inl (UInt8.lt_iff_toNat_lt.2 ?_))
  rw [toNat_ofNat (Nat.lt_trans hlt hb), toNat_ofNat hb]
  exact hlt

/-- The first octet decides unless it is the same, and then the rest does. -/
theorem ofNat_cons_lt_of_le (hle : a ≤ b) (hb : b < 256) (hrest : a = b → as < bs) :
    UInt8.ofNat a :: as < UInt8.ofNat b :: bs := by
  rcases Nat.lt_or_eq_of_le hle with hlt | rfl
  · exact ofNat_cons_lt hlt hb
  · exact List.cons_lt_cons_iff.2 (.inr ⟨rfl, hrest rfl⟩)

end

/-! ## Characters -/

theorem utf8EncodeChar_append_lt {c d : Char} (h : c < d) (as bs : List UInt8) :
    utf8EncodeChar c ++ as < utf8EncodeChar d ++ bs := by
  have hlt : c.val.toNat < d.val.toNat := h
  have hvalid : d.val.toNat < 0xD800 ∨ 0xDFFF < d.val.toNat ∧ d.val.toNat < 0x110000 := d.valid
  simp only [utf8EncodeChar]
  generalize c.val.toNat = v at hlt ⊢
  generalize d.val.toNat = w at hlt hvalid ⊢
  -- on the widths: where the second is the wider one, the first octet decides
  split
  · split
    · exact ofNat_cons_lt hlt (by omega)
    · split
      · exact ofNat_cons_lt (by omega) (by omega)
      · split <;> exact ofNat_cons_lt (by omega) (by omega)
  · split
    · split
      · omega
      · split
        · refine ofNat_cons_lt_of_le (by omega) (by omega) fun _ => ?_
          exact ofNat_cons_lt (by omega) (by omega)
        · split <;> exact ofNat_cons_lt (by omega) (by omega)
    · split
      · split
        · omega
        · split
          · omega
          · split
            · refine ofNat_cons_lt_of_le (by omega) (by omega) fun _ => ?_
              refine ofNat_cons_lt_of_le (by omega) (by omega) fun _ => ?_
              exact ofNat_cons_lt (by omega) (by omega)
            · exact ofNat_cons_lt (by omega) (by omega)
      · split
        · omega
        · split
          · omega
          · split
            · omega
            · refine ofNat_cons_lt_of_le (by omega) (by omega) fun _ => ?_
              refine ofNat_cons_lt_of_le (by omega) (by omega) fun _ => ?_
              refine ofNat_cons_lt_of_le (by omega) (by omega) fun _ => ?_
              exact ofNat_cons_lt (by omega) (by omega)

/-! ## Strings -/

theorem flatMap_lt_of_lt {cs ds : List Char} (h : cs < ds) :
    cs.flatMap utf8EncodeChar < ds.flatMap utf8EncodeChar := by
  induction cs generalizing ds with
  | nil =>
    cases ds with
    | nil => exact absurd h (List.lt_irrefl _)
    | cons d ds =>
      obtain ⟨b, bs, hb⟩ := List.exists_cons_of_ne_nil (String.utf8EncodeChar_ne_nil (c := d))
      rw [List.flatMap_cons, hb]
      exact List.nil_lt_cons _ _
  | cons c cs ih =>
    cases ds with
    | nil => exact absurd h (List.not_lt_nil _)
    | cons d ds =>
      rw [List.flatMap_cons, List.flatMap_cons]
      rcases List.cons_lt_cons_iff.1 h with hlt | ⟨rfl, hrest⟩
      · exact utf8EncodeChar_append_lt hlt _ _
      · exact List.append_left_lt (ih hrest)

theorem encode_lt_of_lt {s t : String} (h : s < t) : encode s < encode t := by
  rw [encode_eq_flatMap, encode_eq_flatMap]
  exact flatMap_lt_of_lt (String.lt_iff.1 h)

/-- The octets of two strings are in the order of the strings. -/
theorem encode_lt_encode_iff {s t : String} : encode s < encode t ↔ s < t := by
  refine ⟨fun h => Decidable.byContradiction fun hnot => ?_, encode_lt_of_lt⟩
  by_cases hback : t < s
  · exact List.lt_asymm h (encode_lt_of_lt hback)
  · obtain rfl : s = t := String.le_antisymm (String.not_lt.1 hback) (String.not_lt.1 hnot)
    exact List.lt_irrefl _ h

theorem encode_le_encode_iff {s t : String} : encode s ≤ encode t ↔ s ≤ t := by
  rw [← List.not_lt, encode_lt_encode_iff, String.not_lt]

end PluginHost.Text.Utf8
