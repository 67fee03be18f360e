import PluginHost.Text.Utf8

/-!
# Reading what was written

The octets of a string are read back as the string. The first octet of a character says how many octets
follow and bounds the second one, so that shorter sequences would do for no character that is written
with a longer one and no surrogate is ever read.

* `Utf8.encode_eq_flatMap`: the octets of a string are those of its characters.
* `Utf8.scanFrom_utf8EncodeChar`: the octets of a character are read as that character.
* `Utf8.decodeLossy_encode`: decoding undoes encoding.
-/

namespace PluginHost.Text.Utf8

set_option autoImplicit false

/-! ## The octets of a string -/

theorem toList_loop_eq (bytes : ByteArray) (i : Nat) (read : List UInt8) :
    ByteArray.toList.loop bytes i read = read.reverse ++ bytes.data.toList.drop i := by
  fun_induction ByteArray.toList.loop bytes i read with
  | case1 i read h ih =>
    have hi : i < bytes.data.toList.length := by simpa using h
    rw [ih, List.drop_eq_getElem_cons hi]
    simp [ByteArray.get!, h]
  | case2 i read h =>
    rw [List.drop_eq_nil_of_le (by simpa using Nat.le_of_not_lt h)]
    simp

theorem encode_eq_flatMap (s : String) : encode s = s.toList.flatMap String.utf8EncodeChar := by
  have hbytes : s.toUTF8 = (s.toList.flatMap String.utf8EncodeChar).toByteArray := by
    have h : (String.ofList s.toList).toUTF8 = List.utf8Encode s.toList := rfl
    rw [String.ofList_toList] at h
    exact h
  have hlist : s.toUTF8.toList = s.toUTF8.data.toList := by
    show ByteArray.toList.loop _ 0 [] = _
    rw [toList_loop_eq]
    rfl
  rw [encode, hlist, hbytes, List.toList_data_toByteArray]

/-! ## One octet -/

section

variable {b : UInt8} {bs : List UInt8}

theorem scanFrom_char {c : Char} (h : lead b.toNat = .char c) :
    scanFrom none (b :: bs) = some c :: scanFrom none bs := by
  simp only [scanFrom, h]

theorem scanFrom_lead {p : Pending} (h : lead b.toNat = .pending p) :
    scanFrom none (b :: bs) = scanFrom (some p) bs := by
  simp only [scanFrom, h]

variable {low high value : Nat}

theorem scanFrom_last (hlow : low ≤ b.toNat) (hhigh : b.toNat ≤ high) :
    scanFrom (some ⟨0, low, high, value⟩) (b :: bs) =
      some (Char.ofNat (value * 64 + (b.toNat - 0x80))) :: scanFrom none bs := by
  rw [scanFrom, if_pos ⟨hlow, hhigh⟩]
  rfl

theorem scanFrom_owed {n : Nat} (hlow : low ≤ b.toNat) (hhigh : b.toNat ≤ high) :
    scanFrom (some ⟨n + 1, low, high, value⟩) (b :: bs) =
      scanFrom (some ⟨n, 0x80, 0xBF, value * 64 + (b.toNat - 0x80)⟩) bs := by
  rw [scanFrom, if_pos ⟨hlow, hhigh⟩]
  rfl

end

/-! ## First octets -/

theorem lead_of_two : ∀ a < 32, 2 ≤ a → lead (a + 0xC0) = .pending ⟨0, 0x80, 0xBF, a⟩ := by
  decide

/-- After `E0` the second octet is not too small, and after `ED` it does not lead to a surrogate. -/
theorem lead_of_three : ∀ a < 16, lead (a + 0xE0) =
    .pending ⟨1, if a = 0 then 0xA0 else 0x80, if a = 0xD then 0x9F else 0xBF, a⟩ := by
  decide

/-- After `F0` the second octet is not too small, and after `F4` it is not too large. -/
theorem lead_of_four : ∀ a < 5, lead (a + 0xF0) =
    .pending ⟨2, if a = 0 then 0x90 else 0x80, if a = 4 then 0x8F else 0xBF, a⟩ := by
  decide

/-! ## One character -/

theorem toNat_ofNat {n : Nat} (h : n < 256) : (UInt8.ofNat n).toNat = n :=
  UInt8.toNat_ofNat_of_lt' h

theorem toNat_tail (n : Nat) : (UInt8.ofNat (n % 0x40 + 0x80)).toNat = n % 64 + 0x80 :=
  toNat_ofNat (by omega)

/-- An octet that follows another has six bits to give. -/
theorem tail_bounds (n : Nat) :
    0x80 ≤ (UInt8.ofNat (n % 0x40 + 0x80)).toNat ∧ (UInt8.ofNat (n % 0x40 + 0x80)).toNat ≤ 0xBF := by
  rw [toNat_tail]
  omega

section

variable {v : Nat} (rest : List UInt8)

theorem scanFrom_two (hlow : 0x80 ≤ v) (hhigh : v < 0x800) :
    scanFrom none (.ofNat (v / 64 % 0x20 + 0xC0) :: .ofNat (v % 0x40 + 0x80) :: rest) =
      some (Char.ofNat v) :: scanFrom none rest := by
  have hfirst : (UInt8.ofNat (v / 64 % 0x20 + 0xC0)).toNat = v / 64 + 0xC0 := by
    rw [toNat_ofNat (by omega)]
    omega
  have hlead : lead (UInt8.ofNat (v / 64 % 0x20 + 0xC0)).toNat = .pending ⟨0, 0x80, 0xBF, v / 64⟩ := by
    rw [hfirst, lead_of_two _ (by omega) (by omega)]
  have hvalue : v / 64 * 64 + v % 64 = v := by omega
  rw [scanFrom_lead hlead, scanFrom_last (tail_bounds v).1 (tail_bounds v).2, toNat_tail,
    Nat.add_sub_cancel, hvalue]

theorem scanFrom_three (hlow : 0x800 ≤ v) (hhigh : v < 0x10000) (hvalid : v < 0xD800 ∨ 0xDFFF < v) :
    scanFrom none (.ofNat (v / 4096 % 0x10 + 0xE0) :: .ofNat (v / 64 % 0x40 + 0x80) ::
      .ofNat (v % 0x40 + 0x80) :: rest) = some (Char.ofNat v) :: scanFrom none rest := by
  have hfirst : (UInt8.ofNat (v / 4096 % 0x10 + 0xE0)).toNat = v / 4096 + 0xE0 := by
    rw [toNat_ofNat (by omega)]
    omega
  have hlead : lead (UInt8.ofNat (v / 4096 % 0x10 + 0xE0)).toNat = .pending ⟨1,
      if v / 4096 = 0 then 0xA0 else 0x80, if v / 4096 = 0xD then 0x9F else 0xBF, v / 4096⟩ := by
    rw [hfirst, lead_of_three _ (by omega)]
  have hsecond : (if v / 4096 = 0 then 0xA0 else 0x80) ≤ (UInt8.ofNat (v / 64 % 0x40 + 0x80)).toNat := by
    rw [toNat_tail]
    split <;> omega
  have hsecond' : (UInt8.ofNat (v / 64 % 0x40 + 0x80)).toNat ≤ if v / 4096 = 0xD then 0x9F else 0xBF := by
    rw [toNat_tail]
    split <;> omega
  have hvalue : (v / 4096 * 64 + v / 64 % 64) * 64 + v % 64 = v := by omega
  rw [scanFrom_lead hlead, scanFrom_owed hsecond hsecond',
    scanFrom_last (tail_bounds v).1 (tail_bounds v).2, toNat_tail, toNat_tail,
    Nat.add_sub_cancel, Nat.add_sub_cancel, hvalue]

theorem scanFrom_four (hlow : 0x10000 ≤ v) (hhigh : v < 0x110000) :
    scanFrom none (.ofNat (v / 262144 % 0x08 + 0xF0) :: .ofNat (v / 4096 % 0x40 + 0x80) ::
      .ofNat (v / 64 % 0x40 + 0x80) :: .ofNat (v % 0x40 + 0x80) :: rest) =
      some (Char.ofNat v) :: scanFrom none rest := by
  have hfirst : (UInt8.ofNat (v / 262144 % 0x08 + 0xF0)).toNat = v / 262144 + 0xF0 := by
    rw [toNat_ofNat (by omega)]
    omega
  have hlead : lead (UInt8.ofNat (v / 262144 % 0x08 + 0xF0)).toNat = .pending ⟨2,
      if v / 262144 = 0 then 0x90 else 0x80, if v / 262144 = 4 then 0x8F else 0xBF, v / 262144⟩ := by
    rw [hfirst, lead_of_four _ (by omega)]
  have hsecond : (if v / 262144 = 0 then 0x90 else 0x80) ≤
      (UInt8.ofNat (v / 4096 % 0x40 + 0x80)).toNat := by
    rw [toNat_tail]
    split <;> omega
  have hsecond' : (UInt8.ofNat (v / 4096 % 0x40 + 0x80)).toNat ≤
      if v / 262144 = 4 then 0x8F else 0xBF := by
    rw [toNat_tail]
    split <;> omega
  have hvalue : ((v / 262144 * 64 + v / 4096 % 64) * 64 + v / 64 % 64) * 64 + v % 64 = v := by omega
  rw [scanFrom_lead hlead, scanFrom_owed hsecond hsecond',
    scanFrom_owed (tail_bounds (v / 64)).1 (tail_bounds (v / 64)).2,
    scanFrom_last (tail_bounds v).1 (tail_bounds v).2]
  simp only [toNat_tail, Nat.add_sub_cancel, hvalue]

end

theorem scanFrom_utf8EncodeChar (c : Char) (rest : List UInt8) :
    scanFrom none (String.utf8EncodeChar c ++ rest) = some c :: scanFrom none rest := by
  have hvalid : c.val.toNat < 0xD800 ∨ 0xDFFF < c.val.toNat ∧ c.val.toNat < 0x110000 := c.valid
  have hchar : Char.ofNat c.val.toNat = c := Char.ofNat_toNat c
  simp only [String.utf8EncodeChar]
  split
  · have hfirst : (UInt8.ofNat c.val.toNat).toNat = c.val.toNat := toNat_ofNat (by omega)
    refine scanFrom_char ?_
    rw [hfirst, lead, if_pos ‹_›, hchar]
  · split
    · refine (scanFrom_two rest (by omega) (by omega)).trans ?_
      rw [hchar]
    · split
      · refine (scanFrom_three rest (by omega) (by omega) (by omega)).trans ?_
        rw [hchar]
      · refine (scanFrom_four rest (by omega) (by omega)).trans ?_
        rw [hchar]

/-! ## A whole string -/

theorem scan_encode (s : String) : scan (encode s) = s.toList.map some := by
  rw [encode_eq_flatMap, scan]
  induction s.toList with
  | nil => rfl
  | cons c cs ih => rw [List.flatMap_cons, scanFrom_utf8EncodeChar, ih, List.map_cons]

@[simp] theorem decodeLossy_encode (s : String) : decodeLossy (encode s) = s := by
  rw [decodeLossy, scan_encode, List.map_map]
  have hchars : s.toList.map ((fun part => part.getD replacement) ∘ some) = s.toList := List.map_id _
  rw [hchars, String.ofList_toList]

theorem encode_eq_nil {s : String} : encode s = [] ↔ s = "" := by
  constructor
  · intro h
    rw [← decodeLossy_encode s, h]
    rfl
  · rintro rfl
    rw [encode_eq_flatMap]
    rfl

end PluginHost.Text.Utf8
