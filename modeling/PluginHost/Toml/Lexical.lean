import PluginHost.Toml.Node

/-!
# Blanks, comments, strings and keys

Every reader takes the characters that are left and answers what it read with what is left after it,
or nothing when the text is malformed.

* `skipBlanks`, `skipLines`, `endOfLine`: blanks, line ends and comments.
* `string`: the four forms of strings. `keyPath`: a key with its dots.
-/

namespace PluginHost.Toml

set_option autoImplicit false

/-- What is read with what is left, unless the text is malformed. -/
abbrev Reading (α : Type) := Option (α × List Char)

/-! ## Blanks, line ends and comments -/

/-- Blanks within a line are spaces and tabs. -/
def isBlank (c : Char) : Bool := c == ' ' || c == '\t'

/-- What may stand in a comment: everything but controls other than the tab. -/
def isCommentChar (c : Char) : Bool := c == '\t' || (decide (0x20 ≤ c.toNat) && c != '\x7f')

def skipBlanks (cs : List Char) : List Char := cs.dropWhile isBlank

/-- Drops a line end in front, which must be there. -/
def newline? : List Char → Option (List Char)
  | '\n' :: rest => some rest
  | '\r' :: '\n' :: rest => some rest
  | _ => none

def skipComment : List Char → List Char
  | '#' :: rest => rest.dropWhile isCommentChar
  | cs => cs

/-- Drops blanks and a comment and then the line end, or stops at the end of the text. -/
def endOfLine (cs : List Char) : Option (List Char) :=
  match skipComment (skipBlanks cs) with
  | [] => some []
  | rest => newline? rest

/-- Drops blanks, line ends and comments; `inside` says whether a comment has begun. -/
def skipLinesFrom : (inside : Bool) → List Char → List Char
  | _, [] => []
  | true, '\n' :: rest => skipLinesFrom false rest
  | false, '\n' :: rest => skipLinesFrom false rest
  | true, '\r' :: '\n' :: rest => skipLinesFrom false rest
  | false, '\r' :: '\n' :: rest => skipLinesFrom false rest
  | true, c :: rest => if isCommentChar c then skipLinesFrom true rest else c :: rest
  | false, c :: rest =>
    if isBlank c then skipLinesFrom false rest
    else if c = '#' then skipLinesFrom true rest
    else c :: rest

def skipLines (cs : List Char) : List Char := skipLinesFrom false cs

/-! ## Escapes -/

/-- Where the reading of a string stands: at a character, after a backslash, inside a code point of
which `left` digits are to come, or in the blanks after a backslash at the end of a line. -/
inductive Escape where
  | plain
  | slash
  | code (left value : Nat)
  | blank (ended : Bool)
  deriving Repr, DecidableEq

def escaped? (c : Char) : Option Char :=
  if c = 'b' then some '\x08'
  else if c = 't' then some '\t'
  else if c = 'n' then some '\n'
  else if c = 'f' then some '\x0c'
  else if c = 'r' then some '\r'
  else if c = '\"' then some '\"'
  else if c = '\\' then some '\\'
  else none

def codeLength? (c : Char) : Option Nat :=
  if c = 'u' then some 4 else if c = 'U' then some 8 else none

def digit? (base : Nat) (c : Char) : Option Nat :=
  let value : Option Nat :=
    if '0' ≤ c ∧ c ≤ '9' then some (c.toNat - 48)
    else if 'a' ≤ c ∧ c ≤ 'f' then some (c.toNat - 87)
    else if 'A' ≤ c ∧ c ≤ 'F' then some (c.toNat - 55)
    else none
  value.filter fun d => decide (d < base)

/-- The character of a code point; surrogates and numbers beyond the last are none. -/
def scalar? (n : Nat) : Option Char :=
  if n < 0xD800 ∨ (0xDFFF < n ∧ n < 0x110000) then some (Char.ofNat n) else none

/-- What stands for itself in a string: the tab and everything that is no control. -/
def isStringChar (c : Char) : Bool := isCommentChar c

def push (c : Char) (r : Reading (List Char)) : Reading (List Char) :=
  r.map fun p => (c :: p.1, p.2)

/-! ## Strings on one line -/

def basicFrom : Escape → List Char → Reading (List Char)
  | _, [] => none
  | .plain, c :: rest =>
    if c = '\"' then some ([], rest)
    else if c = '\\' then basicFrom .slash rest
    else if isStringChar c then push c (basicFrom .plain rest)
    else none
  | .slash, c :: rest =>
    match codeLength? c with
    | some left => basicFrom (.code left 0) rest
    | none =>
      match escaped? c with
      | some e => push e (basicFrom .plain rest)
      | none => none
  | .code left value, c :: rest =>
    match digit? 16 c with
    | none => none
    | some d =>
      if left ≤ 1 then
        match scalar? (value * 16 + d) with
        | some e => push e (basicFrom .plain rest)
        | none => none
      else basicFrom (.code (left - 1) (value * 16 + d)) rest
  | .blank _, _ => none

def literalFrom : List Char → Reading (List Char)
  | [] => none
  | c :: rest =>
    if c = '\'' then some ([], rest)
    else if isStringChar c then push c (literalFrom rest)
    else none

/-! ## Strings over several lines -/

/-- After three quotes: up to two more belong to the text. -/
def closing (quote : Char) : List Char → List Char × List Char
  | a :: b :: rest =>
    if a = quote ∧ b = quote then ([quote, quote], rest)
    else if a = quote then ([quote], b :: rest)
    else ([], a :: b :: rest)
  | [a] => if a = quote then ([quote], []) else ([], [a])
  | [] => ([], [])

def Escape.weight : Escape → Nat
  | .slash => 2
  | .blank _ => 1
  | _ => 0

def multilineFrom : Escape → List Char → Reading (List Char)
  | _, [] => none
  | .plain, '\"' :: '\"' :: '\"' :: rest => some (closing '\"' rest)
  | .plain, '\r' :: '\n' :: rest => push '\n' (multilineFrom .plain rest)
  | .plain, c :: rest =>
    if c = '\\' then multilineFrom .slash rest
    else if c = '\n' ∨ isStringChar c then push c (multilineFrom .plain rest)
    else none
  | .slash, c :: rest =>
    if isBlank c ∨ c = '\n' ∨ c = '\r' then multilineFrom (.blank false) (c :: rest)
    else
      match codeLength? c with
      | some left => multilineFrom (.code left 0) rest
      | none =>
        match escaped? c with
        | some e => push e (multilineFrom .plain rest)
        | none => none
  | .code left value, c :: rest =>
    match digit? 16 c with
    | none => none
    | some d =>
      if left ≤ 1 then
        match scalar? (value * 16 + d) with
        | some e => push e (multilineFrom .plain rest)
        | none => none
      else multilineFrom (.code (left - 1) (value * 16 + d)) rest
  | .blank _, '\r' :: '\n' :: rest => multilineFrom (.blank true) rest
  | .blank ended, c :: rest =>
    if c = '\n' then multilineFrom (.blank true) rest
    else if isBlank c then multilineFrom (.blank ended) rest
    else if ended then multilineFrom .plain (c :: rest)
    else none
termination_by e cs => 3 * cs.length + e.weight
decreasing_by
  all_goals simp +arith [Escape.weight]

def multilineLiteralFrom : List Char → Reading (List Char)
  | [] => none
  | '\'' :: '\'' :: '\'' :: rest => some (closing '\'' rest)
  | '\r' :: '\n' :: rest => push '\n' (multilineLiteralFrom rest)
  | c :: rest =>
    if c = '\n' ∨ isStringChar c then push c (multilineLiteralFrom rest) else none

/-- A line end right after the opening quotes is not part of the text. -/
def dropFirstNewline (cs : List Char) : List Char := (newline? cs).getD cs

/-! ## Strings and keys -/

def string (cs : List Char) : Reading String :=
  let read : Reading (List Char) :=
    match cs with
    | '\"' :: '\"' :: '\"' :: rest => multilineFrom .plain (dropFirstNewline rest)
    | '\"' :: rest => basicFrom .plain rest
    | '\'' :: '\'' :: '\'' :: rest => multilineLiteralFrom (dropFirstNewline rest)
    | '\'' :: rest => literalFrom rest
    | _ => none
  read.map fun p => (String.ofList p.1, p.2)

def isBareChar (c : Char) : Bool :=
  (decide ('a' ≤ c) && decide (c ≤ 'z')) || (decide ('A' ≤ c) && decide (c ≤ 'Z')) ||
    (decide ('0' ≤ c) && decide (c ≤ '9')) || c == '-' || c == '_'

def simpleKey (cs : List Char) : Reading String :=
  let read : Reading (List Char) :=
    match cs with
    | '\"' :: rest => basicFrom .plain rest
    | '\'' :: rest => literalFrom rest
    | _ =>
      let bare := cs.takeWhile isBareChar
      if bare.isEmpty then none else some (bare, cs.dropWhile isBareChar)
  read.map fun p => (String.ofList p.1, p.2)

/-- How many pieces a key may have. -/
def keyLimit : Nat := 79

/-- The pieces of a key, of which at most `limit` may come, with the blanks around them. -/
def keyPathWithin : (limit : Nat) → List Char → Reading (List String)
  | 0, _ => none
  | limit + 1, cs =>
    match simpleKey (skipBlanks cs) with
    | none => none
    | some (piece, rest) =>
      match skipBlanks rest with
      | '.' :: more => (keyPathWithin limit more).map fun p => (piece :: p.1, p.2)
      | left => some ([piece], left)

def keyPath (cs : List Char) : Reading (List String) := keyPathWithin keyLimit cs

end PluginHost.Toml
