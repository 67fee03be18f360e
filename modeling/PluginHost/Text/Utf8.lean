/-!
# UTF-8 octets as characters

Octets are read by a machine that stands either between two characters or inside one. Inside, it
knows how many octets are still owed, the range the next one must lie in, and the value gathered so
far. An octet outside that range ends the ill-formed part before it and is read again from between
characters, so ill-formed parts are as long as a well-formed sequence could have been and no longer.

* `Utf8.scan`: the characters and ill-formed parts, in order.
* `Utf8.decodeLossy`: every ill-formed part replaced by U+FFFD.
* `Utf8.decode?`: the text, when no part is ill-formed.
* `Utf8.encode`: the octets of a string.
-/

namespace PluginHost.Text.Utf8

set_option autoImplicit false

/-! ## The machine -/

/-- Inside a character: `owed + 1` octets to come, the next one from `low` to `high`. -/
structure Pending where
  owed : Nat
  low : Nat
  high : Nat
  value : Nat
  deriving Repr, DecidableEq

/-- What the first octet of a sequence leads to. -/
inductive Lead where
  | char (c : Char)
  | pending (p : Pending)
  | malformed
  deriving Repr, DecidableEq

/-- The first octet of a sequence, which bounds the octet after it. -/
def lead (b : Nat) : Lead :=
  if b ≤ 0x7F then .char (Char.ofNat b)
  else if b ≤ 0xC1 then .malformed
  else if b ≤ 0xDF then .pending ⟨0, 0x80, 0xBF, b - 0xC0⟩
  else if b = 0xE0 then .pending ⟨1, 0xA0, 0xBF, 0⟩
  else if b = 0xED then .pending ⟨1, 0x80, 0x9F, 0xD⟩
  else if b ≤ 0xEF then .pending ⟨1, 0x80, 0xBF, b - 0xE0⟩
  else if b = 0xF0 then .pending ⟨2, 0x90, 0xBF, 0⟩
  else if b ≤ 0xF3 then .pending ⟨2, 0x80, 0xBF, b - 0xF0⟩
  else if b = 0xF4 then .pending ⟨2, 0x80, 0x8F, 4⟩
  else .malformed

/-- The value gathered with one more octet of six bits. -/
def Pending.join (p : Pending) (b : Nat) : Nat := p.value * 64 + (b - 0x80)

/-- The parts of the octets that are left: a character each, or `none` for an ill-formed part. -/
def scanFrom : Option Pending → List UInt8 → List (Option Char)
  | none, [] => []
  | some _, [] => [none]
  | none, b :: bs =>
    match lead b.toNat with
    | .char c => some c :: scanFrom none bs
    | .pending p => scanFrom (some p) bs
    | .malformed => none :: scanFrom none bs
  | some p, b :: bs =>
    if p.low ≤ b.toNat ∧ b.toNat ≤ p.high then
      match p.owed with
      | 0 => some (Char.ofNat (p.join b.toNat)) :: scanFrom none bs
      | n + 1 => scanFrom (some ⟨n, 0x80, 0xBF, p.join b.toNat⟩) bs
    else
      match lead b.toNat with
      | .char c => none :: some c :: scanFrom none bs
      | .pending q => none :: scanFrom (some q) bs
      | .malformed => none :: none :: scanFrom none bs

/-- The characters of the octets, with `none` for every ill-formed part. -/
def scan (bytes : List UInt8) : List (Option Char) := scanFrom none bytes

/-! ## Reading and writing -/

/-- What stands for an ill-formed part: U+FFFD. -/
def replacement : Char := '\uFFFD'

/-- The text with U+FFFD for every ill-formed part. -/
def decodeLossy (bytes : List UInt8) : String :=
  String.ofList ((scan bytes).map fun part => part.getD replacement)

/-- The text, unless some part is ill-formed. -/
def decode? (bytes : List UInt8) : Option String :=
  if (scan bytes).all Option.isSome then some (decodeLossy bytes) else none

def encode (s : String) : List UInt8 := s.toUTF8.toList

/-- A sequence cut short is one ill-formed part, and the octet that cut it is read again. -/
example : scan [0xE2, 0x82, 0x41] = [none, some 'A'] := by decide

/-- A surrogate is three ill-formed parts: no sequence starts with its first two octets. -/
example : scan [0xED, 0xA0, 0x80] = [none, none, none] := by decide

example : scan [0xF0, 0x9F, 0x99, 0x82] = [some '🙂'] := by decide

end PluginHost.Text.Utf8
