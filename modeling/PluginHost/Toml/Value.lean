import PluginHost.Toml.Number

/-!
# Values

Arrays may go over several lines and end in a comma; tables between braces may not. Values may be
nested to a fixed depth.

* `inlineTable`: the table of keys and values between braces.
* `value`: a value of any form.
-/

namespace PluginHost.Toml

set_option autoImplicit false

/-! ## Tables between braces -/

/-- Puts a node under a key with dots. A table on the way must have come from a dotted key, and a
key may come once. -/
def putInline (node : Node) : (path : List String) → Members → Option Members
  | [], _ => none
  | [key], members => if members.contains key then none else some (members.put key node)
  | key :: next :: rest, members =>
    match members.find? key with
    | none => (putInline node (next :: rest) []).map fun below =>
        members.put key (.inline .dotted below)
    | some (.inline .dotted below) => (putInline node (next :: rest) below).map fun below =>
        members.put key (.inline .dotted below)
    | some _ => none

/-- The table of the keys and values that stand between braces. -/
def inlineTable (pairs : List (List String × Node)) : Option Node :=
  (pairs.foldlM (fun members pair => putInline pair.2 pair.1 members) []).map
    (Node.inline .header)

/-! ## Sequences -/

/-- The items up to the closing bracket, with commas between them and lines around them. -/
def arrayItems (item : List Char → Reading Node) : (fuel : Nat) → List Char → Reading (List Node)
  | 0, _ => none
  | fuel + 1, cs =>
    match skipLines cs with
    | ']' :: rest => some ([], rest)
    | cs =>
      match item cs with
      | none => none
      | some (node, rest) =>
        match skipLines rest with
        | ']' :: left => some ([node], left)
        | ',' :: left => (arrayItems item fuel left).map fun p => (node :: p.1, p.2)
        | _ => none

/-- A key, an equals sign and a value, with blanks around them. -/
def pair (item : List Char → Reading Node) (cs : List Char) : Reading (List String × Node) :=
  match keyPath cs with
  | some (path, '=' :: rest) =>
    match item (skipBlanks rest) with
    | some (node, left) => some ((path, node), skipBlanks left)
    | none => none
  | _ => none

/-- The pairs up to the closing brace, with commas between them and none at the end. -/
def inlinePairs (item : List Char → Reading Node) : (fuel : Nat) → List Char →
    Reading (List (List String × Node))
  | 0, _ => none
  | fuel + 1, cs =>
    match pair item cs with
    | none => none
    | some (p, '\x7d' :: left) => some ([p], left)
    | some (p, ',' :: left) => (inlinePairs item fuel left).map fun q => (p :: q.1, q.2)
    | some _ => none

/-! ## Values -/

def depthLimit : Nat := 79

/-- What starts with neither a bracket nor a brace. -/
def scalar (cs : List Char) : Reading Node :=
  match cs with
  | 't' :: 'r' :: 'u' :: 'e' :: rest => some (.boolean true, rest)
  | 'f' :: 'a' :: 'l' :: 's' :: 'e' :: rest => some (.boolean false, rest)
  | c :: _ =>
    if c = '\"' ∨ c = '\'' then (string cs).map fun p => (.text p.1, p.2)
    else if c = 'i' ∨ c = 'n' then special false cs
    else if c = '+' ∨ c = '-' ∨ (digit? 10 c).isSome then number cs
    else none
  | [] => none

def valueWithin : (depth : Nat) → List Char → Reading Node
  | 0, '[' :: _ => none
  | 0, '\x7b' :: _ => none
  | depth + 1, '[' :: rest =>
    (arrayItems (valueWithin depth) rest.length rest).map fun p => (.array p.1, p.2)
  | depth + 1, '\x7b' :: rest =>
    match skipBlanks rest with
    | '\x7d' :: left => some (.inline .header [], left)
    | cs =>
      match inlinePairs (valueWithin depth) cs.length cs with
      | some (pairs, left) => (inlineTable pairs).map fun node => (node, left)
      | none => none
  | _, cs => scalar cs

def value (cs : List Char) : Reading Node := valueWithin depthLimit cs

end PluginHost.Toml
