/-!
# Binary floating point with 53 bits

A finite value is `mantissa * 2 ^ exponent`. Decimal numbers are read by rounding to the nearest
value, a tie to the even mantissa; values are written with the fewest decimal digits that read back,
of those the nearest, a tie to the greater. All arithmetic is exact on natural numbers.

* `Binary64`: the values. `Tie`: where a number halfway between two others goes.
* `Binary64.ofDecimal`: the nearest value of a decimal number.
* `Binary64.shortest`: the fewest digits that read back, and the place of their decimal point.
* `Binary64.positional`: the value written without an exponent, with at least one decimal.
-/

namespace PluginHost.Decimal

set_option autoImplicit false

/-! ## Values -/

inductive Magnitude where
  | finite (mantissa : Nat) (exponent : Int)
  | infinite
  | undefined
  deriving Repr, DecidableEq

structure Binary64 where
  negative : Bool
  magnitude : Magnitude
  deriving Repr, DecidableEq

/-- Where a number halfway between its two neighbours goes. -/
inductive Tie where
  | toEven
  | upward
  deriving Repr, DecidableEq

namespace Binary64

structure Ratio where
  num : Nat
  den : Nat

def Ratio.scaled (n base : Nat) (e : Int) : Ratio :=
  if 0 ≤ e then ⟨n * Nat.pow base e.toNat, 1⟩ else ⟨n, Nat.pow base (-e).toNat⟩

def Ratio.divPow (r : Ratio) (base : Nat) (e : Int) : Ratio :=
  if 0 ≤ e then ⟨r.num, r.den * Nat.pow base e.toNat⟩ else ⟨r.num * Nat.pow base (-e).toNat, r.den⟩

/-- The nearest natural number, a tie as `tie` says. -/
def Ratio.round (tie : Tie) (r : Ratio) : Nat :=
  let q := r.num / r.den
  let rest := r.num % r.den
  if 2 * rest < r.den then q
  else if r.den < 2 * rest then q + 1
  else match tie with
    | .toEven => if q % 2 = 0 then q else q + 1
    | .upward => q + 1

example : Ratio.round .toEven ⟨5, 2⟩ = 2 ∧ Ratio.round .upward ⟨5, 2⟩ = 3 := by decide

/-! ## Reading -/

def leastExponent : Int := -1074

/-- The exponent at which a fraction has a mantissa of 53 bits, or the least one. -/
def exponentFor (r : Ratio) : Int :=
  let guess : Int := (Nat.log2 r.num : Int) - (Nat.log2 r.den : Int) - 52
  let scaled := r.divPow 2 guess
  let exponent := if scaled.num / scaled.den < Nat.pow 2 52 then guess - 1 else guess
  max exponent leastExponent

/-- The nearest value of a positive fraction; what is too large becomes infinite. -/
def nearest (r : Ratio) : Magnitude :=
  let e := exponentFor r
  let m := (r.divPow 2 e).round .toEven
  if m = 0 then .finite 0 0
  else if m = Nat.pow 2 53 then
    if 971 < e + 1 then .infinite else .finite (Nat.pow 2 52) (e + 1)
  else if 971 < e then .infinite
  else .finite m e

/-- The nearest value of `digits * 10 ^ exponent`. Numbers far beyond the range are not worked out:
below `10 ^ -400` all round to zero, and above `10 ^ 400` all are infinite. -/
def ofDecimal (negative : Bool) (digits : Nat) (exponent : Int) : Binary64 :=
  let size : Int := (Nat.toDigits 10 digits).length + exponent
  if digits = 0 ∨ size < -400 then ⟨negative, .finite 0 0⟩
  else if 400 < size then ⟨negative, .infinite⟩
  else ⟨negative, nearest (.scaled digits 10 exponent)⟩

/-! ## Writing -/

/-- The fractions that read back as `m * 2 ^ e` lie between these two, which are counted in quarters
of `2 ^ e`; the lower neighbour of a power of two is half as far away. -/
def roundingInterval (m : Nat) (e : Int) : Nat × Nat :=
  (if m = Nat.pow 2 52 ∧ leastExponent < e then 4 * m - 1 else 4 * m - 2, 4 * m + 2)

/-- Whether `d * 10 ^ p` reads back as `m * 2 ^ e`. -/
def readsBack (m : Nat) (e : Int) (d : Nat) (p : Int) : Bool :=
  let lower := (roundingInterval m e).1
  let upper := (roundingInterval m e).2
  let value := (Ratio.scaled d 10 p).divPow 2 (e - 2)
  if m % 2 = 0 then decide (lower * value.den ≤ value.num ∧ value.num ≤ upper * value.den)
  else decide (lower * value.den < value.num ∧ value.num < upper * value.den)

/-- The power of ten next above a fraction: `10 ^ (p - 1) ≤ r < 10 ^ p`. -/
def decimalPlace (r : Ratio) : Int :=
  let guess : Int := (Nat.toDigits 10 r.num).length - (Nat.toDigits 10 r.den).length
  let scaled := r.divPow 10 guess
  if scaled.den ≤ scaled.num then guess + 1 else guess

/-- The digits on the grid of `10 ^ (place - n)` that read back, the nearer neighbour first and the
greater of two that are equally near. -/
def onGrid (m : Nat) (e : Int) (place : Int) (n : Nat) : Option Nat :=
  let p := place - n
  let scaled := (Ratio.scaled m 2 e).divPow 10 p
  let below := scaled.num / scaled.den
  let near := scaled.round .upward
  let far := if near = below then below + 1 else below
  if readsBack m e near p then some near else if readsBack m e far p then some far else none

/-- The first grid with digits that read back, among those of `n`, `n + 1`, … digits. -/
def firstGrid (m : Nat) (e : Int) (place : Int) : (fuel n : Nat) → Nat × Int
  | 0, n => (((Ratio.scaled m 2 e).divPow 10 (place - n)).round .upward, place - n)
  | fuel + 1, n =>
    match onGrid m e place n with
    | some d => (d, place - n)
    | none => firstGrid m e place fuel (n + 1)

/-- The fewest digits `d` that read back as `m * 2 ^ e`, of those the nearest, with the `p` for
which they mean `d * 10 ^ p`. Rounding up to a power of ten leaves a zero at the end, which is
dropped. -/
def shortest (m : Nat) (e : Int) : Nat × Int :=
  let found := firstGrid m e (decimalPlace (.scaled m 2 e)) 16 1
  if found.1 % 10 = 0 then (found.1 / 10, found.2 + 1) else found

/-- The digits of `d * 10 ^ p` around a decimal point, with at least one on each side. -/
def written (d : Nat) (p : Int) : String :=
  if 0 ≤ p then toString (d * Nat.pow 10 p.toNat) ++ ".0"
  else
    let places := (-p).toNat
    let whole := d / Nat.pow 10 places
    let rest := toString (d % Nat.pow 10 places)
    toString whole ++ "." ++ String.ofList (List.replicate (places - rest.length) '0') ++ rest

def positional (x : Binary64) : String :=
  let sign := if x.negative then "-" else ""
  match x.magnitude with
  | .undefined => "NaN"
  | .infinite => sign ++ "inf"
  | .finite 0 _ => sign ++ "0.0"
  | .finite m e => sign ++ written (shortest m e).1 (shortest m e).2

end Binary64

end PluginHost.Decimal
