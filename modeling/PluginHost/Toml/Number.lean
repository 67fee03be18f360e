import PluginHost.Toml.Lexical

/-!
# Numbers, dates and times

* `moment`: a date, a time, or a date with a time and an offset; only its form is kept.
* `float`: a number with decimals or an exponent, or one of the words for infinity and no number.
* `integer`: a whole number of 64 bits in base ten, sixteen, eight or two.
* `number`: the first of these that fits.
-/

namespace PluginHost.Toml

set_option autoImplicit false

open PluginHost.Decimal

/-! ## Digits -/

def valueOf (base : Nat) (ds : List Nat) : Nat := ds.foldl (fun n d => n * base + d) 0

/-- The digits in front; between two of them an underscore may stand. -/
def digitsFrom (base : Nat) : List Char → List Nat × List Char
  | [] => ([], [])
  | '_' :: c :: rest =>
    match digit? base c with
    | some d => (d :: (digitsFrom base rest).1, (digitsFrom base rest).2)
    | none => ([], '_' :: c :: rest)
  | c :: rest =>
    match digit? base c with
    | some d => (d :: (digitsFrom base rest).1, (digitsFrom base rest).2)
    | none => ([], c :: rest)

/-- One digit or more, the first of which stands without an underscore. -/
def digits (base : Nat) : List Char → Reading (List Nat)
  | [] => none
  | c :: rest =>
    match digit? base c with
    | some d => some (d :: (digitsFrom base rest).1, (digitsFrom base rest).2)
    | none => none

def fixedDigits : (n : Nat) → List Char → Reading (List Nat)
  | 0, cs => some ([], cs)
  | _ + 1, [] => none
  | n + 1, c :: rest =>
    match digit? 10 c with
    | some d => (fixedDigits n rest).map fun p => (d :: p.1, p.2)
    | none => none

/-- A number of exactly `n` decimal digits that lies between two bounds. -/
def bounded (n low high : Nat) (cs : List Char) : Reading Nat :=
  match fixedDigits n cs with
  | some (ds, rest) =>
    let value := valueOf 10 ds
    if low ≤ value ∧ value ≤ high then some (value, rest) else none
  | none => none

def expect (c : Char) : List Char → Option (List Char)
  | [] => none
  | d :: rest => if d = c then some rest else none

/-! ## Dates and times -/

def daysIn (year month : Nat) : Nat :=
  if month = 2 then
    if year % 4 = 0 ∧ (year % 100 ≠ 0 ∨ year % 400 = 0) then 29 else 28
  else if month = 4 ∨ month = 6 ∨ month = 9 ∨ month = 11 then 30
  else 31

def date (cs : List Char) : Option (List Char) := do
  let (year, cs) ← bounded 4 0 9999 cs
  let cs ← expect '-' cs
  let (month, cs) ← bounded 2 1 12 cs
  let cs ← expect '-' cs
  let (_, cs) ← bounded 2 1 (daysIn year month) cs
  return cs

def fraction : List Char → Option (List Char)
  | '.' :: rest =>
    let ds := rest.takeWhile fun c => (digit? 10 c).isSome
    if ds.isEmpty then none else some (rest.drop ds.length)
  | cs => some cs

/-- A time: hour, minute and second, which may be the sixty-first. -/
def time (cs : List Char) : Option (List Char) := do
  let (_, cs) ← bounded 2 0 23 cs
  let cs ← expect ':' cs
  let (_, cs) ← bounded 2 0 59 cs
  let cs ← expect ':' cs
  let (_, cs) ← bounded 2 0 60 cs
  fraction cs

def offset : List Char → Option (List Char)
  | 'Z' :: rest => some rest
  | 'z' :: rest => some rest
  | sign :: rest =>
    if sign = '+' ∨ sign = '-' then do
      let (_, cs) ← bounded 2 0 23 rest
      let cs ← expect ':' cs
      let (_, cs) ← bounded 2 0 59 cs
      return cs
    else some (sign :: rest)
  | [] => some []

/-- Whether two digits and a colon are in front, as at the beginning of a time. -/
def startsTime (cs : List Char) : Bool :=
  match fixedDigits 2 cs with
  | some (_, ':' :: _) => true
  | _ => false

/-- Whether four digits and a hyphen are in front, as at the beginning of a date. -/
def startsDate (cs : List Char) : Bool :=
  match fixedDigits 4 cs with
  | some (_, '-' :: _) => true
  | _ => false

/-- A date, and the time that may follow it after a `T` or a space. -/
def dateAndTime (cs : List Char) : Option (List Char) :=
  match date cs with
  | none => none
  | some [] => some []
  | some (c :: rest) =>
    if (c = 'T' ∨ c = 't' ∨ c = ' ') ∧ startsTime rest then (time rest).bind offset
    else some (c :: rest)

/-! ## Floating point -/

def sign : List Char → Bool × List Char
  | '+' :: rest => (false, rest)
  | '-' :: rest => (true, rest)
  | cs => (false, cs)

/-- The digits before the decimal point: a zero alone, or digits that start with none. -/
def wholeDigits : List Char → Reading (List Nat)
  | '0' :: rest => some ([0], rest)
  | cs => digits 10 cs

def decimals : List Char → Reading (List Nat)
  | '.' :: rest => digits 10 rest
  | cs => some ([], cs)

def exponent : List Char → Reading (Option Int)
  | [] => some (none, [])
  | c :: rest =>
    if c = 'e' ∨ c = 'E' then
      match digits 10 (sign rest).2 with
      | some (ds, left) =>
        let value : Int := valueOf 10 ds
        some (some (if (sign rest).1 then -value else value), left)
      | none => none
    else some (none, c :: rest)

/-- Infinity and no number, after a sign that has been read. -/
def special (negative : Bool) : List Char → Reading Node
  | 'i' :: 'n' :: 'f' :: rest => some (.float ⟨negative, .infinite⟩, rest)
  | 'n' :: 'a' :: 'n' :: rest => some (.float ⟨negative, .undefined⟩, rest)
  | _ => none

/-- A number with decimals or an exponent. A number too large is refused above zero only. -/
def float (cs : List Char) : Option (Node × List Char) := do
  let (negative, cs) := sign cs
  let (whole, cs) ← wholeDigits cs
  let (places, cs) ← decimals cs
  let (power, cs) ← exponent cs
  if places.isEmpty && power.isNone then none
  let x := Binary64.ofDecimal negative (valueOf 10 (whole ++ places)) (power.getD 0 - places.length)
  if x = ⟨false, .infinite⟩ then none else some (.float x, cs)

/-! ## Whole numbers -/

/-- A whole number, which must fit into 64 bits. -/
def fitting (negative : Bool) (n : Nat) (rest : List Char) : Reading Node :=
  if negative then if n ≤ Nat.pow 2 63 then some (.integer (-(n : Int)), rest) else none
  else if n < Nat.pow 2 63 then some (.integer n, rest) else none

def decimalInteger (cs : List Char) : Reading Node :=
  match wholeDigits (sign cs).2 with
  | some (ds, rest) => fitting (sign cs).1 (valueOf 10 ds) rest
  | none => none

/-- A whole number in another base, after the letters that announce it. -/
def otherInteger (base : Nat) (cs : List Char) : Reading Node :=
  match digits base cs with
  | some (ds, rest) => fitting false (valueOf base ds) rest
  | none => none

def integer : List Char → Reading Node
  | '0' :: 'x' :: rest => otherInteger 16 rest
  | '0' :: 'o' :: rest => otherInteger 8 rest
  | '0' :: 'b' :: rest => otherInteger 2 rest
  | cs => decimalInteger cs

/-! ## The first that fits -/

/-- A date, a time, a number with decimals or an exponent, or a whole number. -/
def number (cs : List Char) : Reading Node :=
  if startsDate cs then (dateAndTime cs).map fun rest => (.moment, rest)
  else if startsTime cs then (time cs).map fun rest => (.moment, rest)
  else ((float cs).or (special (sign cs).1 (sign cs).2)).or (integer cs)

end PluginHost.Toml
