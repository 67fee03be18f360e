import PluginHost.Toml.Value

/-!
# Documents

A document is read line by line into a root table. A header opens a table and closes the one before
it; a table is put into its place when it is closed, after the tables that were closed earlier.

* `Builder`: the root, the open table and the way to it.
* `Builder.set`, `Builder.openTable`, `Builder.openElement`: the three kinds of lines.
* `parse`: the keys of the root of a document, or nothing when the document is malformed.
-/

namespace PluginHost.Toml

set_option autoImplicit false

/-! ## Changing a table below another -/

abbrev Element := Opening × Members

def changeLast (f : Element → Option Element) : List Element → Option (List Element)
  | [] => none
  | [e] => (f e).map fun e' => [e']
  | e :: rest => (changeLast f rest).map fun rest' => e :: rest'

/-- Changes the table that a path leads to. Tables that are missing on the way are made; they count
as dotted when a dotted key leads through them and as implied when a header does. Of an array of
tables the last element is meant. A dotted key leads through no table that has its own header. -/
def changeAt (isDotted : Bool) (f : Element → Option Element) :
    (path : List String) → Element → Option Element
  | [], e => f e
  | key :: rest, (opening, members) =>
    match members.find? key with
    | none =>
      match changeAt isDotted f rest (if isDotted then .dotted else .implied, []) with
      | some (o, below) => some (opening, members.put key (.table o below))
      | none => none
    | some (.table o below) =>
      if isDotted && o == .header then none
      else
        match changeAt isDotted f rest (o, below) with
        | some (o', below') => some (opening, members.put key (.table o' below'))
        | none => none
    | some (.tables elements) =>
      match changeLast (changeAt isDotted f rest) elements with
      | some elements' => some (opening, members.put key (.tables elements'))
      | none => none
    | some _ => none

/-! ## Building -/

/-- A document in the making: the tables that are closed, the open one, the way to it, and whether it
is an element of an array of tables. -/
structure Builder where
  root : Element
  current : Element
  path : List String
  isElement : Bool

namespace Builder

/-- Nothing read: the root itself is open. -/
def start : Builder := ⟨(.header, []), (.header, []), [], false⟩

/-- Puts a closed table under its key, where only an implied table may be. -/
def settle (table : Element) (key : String) (parent : Element) : Option Element :=
  match parent.2.find? key with
  | none => some (parent.1, parent.2.put key (.table table.1 table.2))
  | some (.table .header _) => none
  | some (.table _ _) => some (parent.1, parent.2.put key (.table table.1 table.2))
  | some _ => none

/-- Adds a closed table to the array of tables under its key. -/
def append (table : Element) (key : String) (parent : Element) : Option Element :=
  match parent.2.find? key with
  | none => some (parent.1, parent.2.put key (.tables [table]))
  | some (.tables elements) => some (parent.1, parent.2.put key (.tables (elements ++ [table])))
  | some _ => none

/-- Closes the open table: the root with its table in place. -/
def close (b : Builder) : Option Element :=
  match b.path.getLast? with
  | none => some b.current
  | some key =>
    let put := if b.isElement then append b.current key else settle b.current key
    changeAt false put b.path.dropLast b.root

/-- A key with its value. The table that a dotted key ends in must come from dotted keys. -/
def set (b : Builder) (path : List String) (node : Node) : Option Builder :=
  match path.getLast? with
  | none => none
  | some key =>
    let put (e : Element) : Option Element :=
      if (e.1 == .dotted) == path.dropLast.isEmpty then none
      else if e.2.contains key then none
      else some (e.1, e.2.put key node)
    (changeAt true put path.dropLast b.current).map fun e => { b with current := e }

/-- Takes the implied table under a key out of its parent, if there is one. -/
def takeImplied (key : String) (parent : Element) : Option Members :=
  match parent.2.find? key with
  | none => some []
  | some (.table .implied below) => some below
  | some _ => none

/-- What a path leads to, with the tables on the way made. -/
def lookUp {α : Type} (f : Element → Option α) : (path : List String) → Element → Option α
  | [], e => f e
  | key :: rest, e =>
    match e.2.find? key with
    | none => lookUp f rest (.implied, [])
    | some (.table o below) => lookUp f rest (o, below)
    | some (.tables elements) => (elements.getLast?).bind (lookUp f rest)
    | some _ => none

/-- The header of a table. An implied table keeps what is below it and moves to the end. -/
def openTable (b : Builder) (path : List String) : Option Builder :=
  match b.close, path.getLast? with
  | some root, some key =>
    match lookUp (takeImplied key) path.dropLast root with
    | none => none
    | some below =>
      (changeAt false (fun e => some (e.1, e.2.erase key)) path.dropLast root).map fun root' =>
        ⟨root', (.header, below), path, false⟩
  | _, _ => none

/-- The header of an element of an array of tables. The array has its place from its first header
on. -/
def openElement (b : Builder) (path : List String) : Option Builder :=
  match b.close, path.getLast? with
  | some root, some key =>
    let reserve (parent : Element) : Option Element :=
      match parent.2.find? key with
      | none => some (parent.1, parent.2.put key (.tables []))
      | some (.tables _) => some parent
      | some _ => none
    (changeAt false reserve path.dropLast root).map fun root' =>
      ⟨root', (.header, []), path, true⟩
  | _, _ => none

end Builder

/-! ## Lines -/

/-- A line that is neither empty nor a comment, without its end. -/
def line (b : Builder) (cs : List Char) : Option (Builder × List Char) :=
  match cs with
  | '[' :: '[' :: rest =>
    match keyPath rest with
    | some (path, ']' :: ']' :: left) => (b.openElement path).map fun b' => (b', left)
    | _ => none
  | '[' :: rest =>
    match keyPath rest with
    | some (path, ']' :: left) => (b.openTable path).map fun b' => (b', left)
    | _ => none
  | _ =>
    match keyPath cs with
    | some (path, '=' :: rest) =>
      match value (skipBlanks rest) with
      | some (node, left) => (b.set path node).map fun b' => (b', left)
      | none => none
    | _ => none

def lines (b : Builder) : (fuel : Nat) → List Char → Option Builder
  | 0, _ => none
  | fuel + 1, cs =>
    match skipBlanks cs with
    | [] => some b
    | '#' :: rest => (endOfLine ('#' :: rest)).bind (lines b fuel)
    | '\n' :: rest => lines b fuel rest
    | '\r' :: '\n' :: rest => lines b fuel rest
    | rest =>
      match line b rest with
      | none => none
      | some (b', left) => (endOfLine left).bind (lines b' fuel)

/-- A byte order mark in front is not part of the text. -/
def dropMark : List Char → List Char
  | '\uFEFF' :: rest => rest
  | cs => cs

def parse (source : String) : Option Members :=
  let cs := dropMark source.toList
  ((lines .start (cs.length + 1) cs).bind Builder.close).map Prod.snd

end PluginHost.Toml
