import PluginHost.Text.Printable

/-!
# Quoted text

A text is shown between double quotes. The quote and the backslash are escaped by a backslash, five
controls have a letter or digit of their own, and a character that cannot be shown as it is becomes
its code point in hexadecimal.

* `Quoted.escape`: the written form of one character.
* `Quoted.quote`: the written form of a text, with its quotes.
-/

namespace PluginHost.Text.Quoted

set_option autoImplicit false

/-! ## Digits -/

/-- The hexadecimal digit of a number below sixteen, in lower case. -/
def hexDigit (n : Nat) : Char :=
  if n < 10 then Char.ofNat (48 + n) else Char.ofNat (87 + n)

/-- The digits of `n`, most significant first, at most `width` of them. -/
def hexDigitsWithin : Nat → Nat → List Char
  | 0, _ => []
  | width + 1, n =>
    if n < 16 then [hexDigit n] else hexDigitsWithin width (n / 16) ++ [hexDigit (n % 16)]

/-- The digits of a code point, which has at most six. -/
def hexDigits (n : Nat) : List Char := hexDigitsWithin 6 n

/-! ## Writing -/

/-- A code point in hexadecimal between braces. -/
def escapeCode (c : Char) : List Char :=
  ['\\', 'u', '\x7b'] ++ hexDigits c.toNat ++ ['\x7d']

def escape (c : Char) : List Char :=
  if c = '\x00' then ['\\', '0']
  else if c = '\t' then ['\\', 't']
  else if c = '\r' then ['\\', 'r']
  else if c = '\n' then ['\\', 'n']
  else if c = '\"' then ['\\', '\"']
  else if c = '\\' then ['\\', '\\']
  else if isExtender c then escapeCode c
  else if isPrintable c then [c]
  else escapeCode c

def quote (s : String) : String :=
  String.ofList (['\"'] ++ s.toList.flatMap escape ++ ['\"'])

example : escape 'a' = ['a'] ∧ escape '\"' = ['\\', '\"'] := by decide

example : escape '\x01' = ['\\', 'u', '\x7b', '1', '\x7d'] := by decide +kernel

end PluginHost.Text.Quoted
