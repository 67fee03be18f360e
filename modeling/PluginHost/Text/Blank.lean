/-!
# Blank characters

A character is blank when it has the Unicode property `White_Space`.

* `isBlank`: the property, as a table of code point ranges.
* `trim`: a text without its leading and trailing blanks.
* `lowerAscii`: a text with its ASCII capitals lowered; every other character stays.
-/

namespace PluginHost.Text

set_option autoImplicit false

/-! ## The property -/

/-- The code points with the property `White_Space`, as closed ranges. -/
def blankRanges : List (Nat × Nat) :=
  [(0x9, 0xD), (0x20, 0x20), (0x85, 0x85), (0xA0, 0xA0), (0x1680, 0x1680), (0x2000, 0x200A),
    (0x2028, 0x2029), (0x202F, 0x202F), (0x205F, 0x205F), (0x3000, 0x3000)]

/-- Whether `n` lies in one of the closed ranges `rs`. -/
def inRanges (rs : List (Nat × Nat)) (n : Nat) : Bool :=
  rs.any fun r => decide (r.1 ≤ n) && decide (n ≤ r.2)

def isBlank (c : Char) : Bool := inRanges blankRanges c.toNat

/-- The property holds of exactly twenty-five code points. -/
example : (blankRanges.map fun r => r.2 + 1 - r.1).sum = 25 := by decide

example : isBlank ' ' = true ∧ isBlank '\t' = true ∧ isBlank ':' = false := by decide

/-- A zero-width space is not blank, an ideographic one is. -/
example : isBlank '\u200b' = false ∧ isBlank '\u3000' = true := by decide

/-! ## Trimming and lowering -/

/-- The text without the blanks at its two ends. -/
def trim (cs : List Char) : List Char :=
  ((cs.dropWhile isBlank).reverse.dropWhile isBlank).reverse

def lowerAscii (cs : List Char) : List Char := cs.map Char.toLower

end PluginHost.Text
