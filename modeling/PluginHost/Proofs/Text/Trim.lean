import Mathlib.Data.List.Forall2
import Mathlib.Data.List.TakeWhile
import PluginHost.Text.Blank

/-!
# Texts between blanks

Trimming finds the one text without blanks at its ends that lies between the blanks, and lowering changes the
capitals from A to Z and nothing else.

* `Text.Between`, `Text.Flush`: a text between blanks, and one with no blank at its ends.
* `Text.between_trim`, `Text.flush_trim`, `Text.Between.trim_eq`: what trimming gives.
* `Text.Lowered`: a text with its capitals lowered.
* `Text.lowerAscii_trim_eq_iff`: where a word is found.
-/

namespace PluginHost.Text

set_option autoImplicit false

/-- `cs` is `core` with blanks in front and behind. -/
def Between (core cs : List Char) : Prop :=
  ∃ front back, cs = front ++ core ++ back ∧
    (∀ c ∈ front, isBlank c = true) ∧ ∀ c ∈ back, isBlank c = true

/-- There is no blank at either end. -/
def Flush (cs : List Char) : Prop :=
  (∀ c ∈ cs.head?, isBlank c = false) ∧ ∀ c ∈ cs.getLast?, isBlank c = false

/-! ## Trimming -/

variable {cs core : List Char}

theorem head?_dropWhile_blank (cs : List Char) {c : Char} (h : c ∈ (cs.dropWhile isBlank).head?) :
    isBlank c = false := by
  have hhead := List.head?_dropWhile_not isBlank cs
  rw [Option.mem_def.1 h] at hhead
  exact hhead

theorem dropWhile_blank_append {front : List Char} (hfront : ∀ c ∈ front, isBlank c = true)
    (rest : List Char) (hrest : ∀ c ∈ rest.head?, isBlank c = false) : (front ++ rest).dropWhile isBlank = rest := by
  rw [List.dropWhile_append_of_pos hfront]
  cases rest with
  | nil => rfl
  | cons c rest => exact List.dropWhile_cons_of_neg (by simp [hrest c rfl])

/-- What trimming leaves is followed by the blanks behind it. -/
theorem dropWhile_blank_eq (cs : List Char) : cs.dropWhile isBlank =
    trim cs ++ ((cs.dropWhile isBlank).reverse.takeWhile isBlank).reverse := by
  rw [trim, ← List.reverse_append, List.takeWhile_append_dropWhile, List.reverse_reverse]

theorem between_trim (cs : List Char) : Between (trim cs) cs := by
  refine ⟨cs.takeWhile isBlank, ((cs.dropWhile isBlank).reverse.takeWhile isBlank).reverse, ?_,
    fun c hc => List.mem_takeWhile_imp hc, fun c hc => List.mem_takeWhile_imp (List.mem_reverse.1 hc)⟩
  rw [List.append_assoc, ← dropWhile_blank_eq, List.takeWhile_append_dropWhile]

theorem flush_trim (cs : List Char) : Flush (trim cs) := by
  constructor
  · intro c hc
    refine head?_dropWhile_blank cs ?_
    rw [dropWhile_blank_eq, List.head?_append, Option.mem_def.1 hc]
    rfl
  · intro c hc
    rw [trim, List.getLast?_reverse] at hc
    exact head?_dropWhile_blank _ hc

theorem Between.trim_eq (h : Between core cs) (hflush : Flush core) : trim cs = core := by
  obtain ⟨front, back, rfl, hfront, hback⟩ := h
  have hback' : ∀ c ∈ back.reverse, isBlank c = true := fun c hc => hback c (List.mem_reverse.1 hc)
  cases core with
  | nil =>
    have hall : (front ++ [] ++ back).dropWhile isBlank = [] := by
      rw [List.append_nil, List.dropWhile_append_of_pos hfront]
      exact List.dropWhile_eq_nil_iff.2 hback
    rw [trim, hall]
    rfl
  | cons c core =>
    have hlast : ∀ d ∈ (c :: core).reverse.head?, isBlank d = false := by
      rw [List.head?_reverse]
      exact hflush.2
    rw [trim, List.append_assoc, dropWhile_blank_append hfront (c :: core ++ back) hflush.1,
      List.reverse_append, dropWhile_blank_append hback' _ hlast, List.reverse_reverse]

/-! ## Lowering -/

/-- `ds` is `cs` with the capitals from A to Z lowered. -/
def Lowered (cs ds : List Char) : Prop :=
  List.Forall₂ (fun c d => d.toNat = if 'A' ≤ c ∧ c ≤ 'Z' then c.toNat + 32 else c.toNat) cs ds

theorem toNat_toLower (c : Char) :
    c.toLower.toNat = if 'A' ≤ c ∧ c ≤ 'Z' then c.toNat + 32 else c.toNat := by
  by_cases h : 'A' ≤ c ∧ c ≤ 'Z'
  · have hlow : c.toLower.val = c.val + 32 := congrArg Char.val (dif_pos h)
    have hhigh : c.toNat ≤ 0x5A := UInt32.le_iff_toNat_le.1 h.2
    have hsmall : c.toNat + 32 < 2 ^ 32 := by omega
    rw [if_pos h, ← Char.toNat_val, hlow]
    exact (UInt32.toNat_add c.val 32).trans (Nat.mod_eq_of_lt hsmall)
  · have hsame : c.toLower = c := dif_neg h
    rw [if_neg h, hsame]

theorem lowered_iff {ds : List Char} : Lowered cs ds ↔ lowerAscii cs = ds := by
  rw [Lowered, lowerAscii, ← List.forall₂_eq_eq_eq, List.forall₂_map_left_iff]
  simp only [← toNat_toLower, Char.toNat_inj, eq_comm]

/-- Where a word is found: without the blanks around it, and with its capitals lowered. -/
theorem lowerAscii_trim_eq_iff {word : List Char} :
    lowerAscii (trim cs) = word ↔ ∃ core, Between core cs ∧ Flush core ∧ Lowered core word := by
  constructor
  · intro h
    exact ⟨trim cs, between_trim cs, flush_trim cs, lowered_iff.2 h⟩
  · rintro ⟨core, hbetween, hflush, hlowered⟩
    rw [hbetween.trim_eq hflush]
    exact lowered_iff.1 hlowered

end PluginHost.Text
