import PluginHost.Name
import PluginHost.Text.Blank

/-!
# Reading the written form of an index

The written form of an index is an outline: lines of words, which stand deeper the more tabs are in front of
them. It is read without the loader that wrote it. The names in it hold no blank, so that neither a line nor a
word ends inside a name.

* `Line`, `Line.all`: the lines of an outline.
* `Report`, `Report.read`: what is written about an index, and how it is read.
* `Report.ofLines_lines`: nothing that is written gets lost.
-/

namespace PluginHost

set_option autoImplicit false

open PluginHost.Text (isBlank)

/-! ## Lines -/

/-- There is no blank in the text. -/
def Solid (text : String) : Prop := ∀ c ∈ text.toList, isBlank c = false

instance (text : String) : Decidable (Solid text) :=
  decidable_of_iff ((text.toList.all fun c => !isBlank c) = true) (by simp [Solid])

/-- A line of an outline: how deep it stands, and its words. -/
structure Line where
  depth : Nat
  words : List String
  deriving Repr, DecidableEq

namespace Line

def chars (l : Line) : List Char :=
  List.replicate l.depth '\t' ++ [' '].intercalate (l.words.map String.toList)

def read (cs : List Char) : Line :=
  ⟨(cs.takeWhile (· == '\t')).length, ((cs.dropWhile (· == '\t')).splitOn ' ').map String.ofList⟩

/-- The lines of a text; every line is ended. -/
def all (text : String) : List Line := (text.toList.splitOn '\n').dropLast.map read

/-- There is a word, and no blank is inside one. -/
structure Plain (l : Line) : Prop where
  some : l.words ≠ []
  solid : ∀ word ∈ l.words, Solid word

theorem blank_of_mem_intercalate {words : List String} {c : Char}
    (h : c ∈ [' '].intercalate (words.map String.toList)) :
    c = ' ' ∨ ∃ word ∈ words, c ∈ word.toList := by
  induction words with
  | nil => simp [List.intercalate] at h
  | cons word rest ih =>
    cases rest with
    | nil => exact .inr ⟨word, by simp, by simpa [List.intercalate] using h⟩
    | cons next others =>
      rw [List.map_cons, List.map_cons, List.intercalate_cons_cons, List.append_assoc] at h
      rcases List.mem_append.1 h with h | h
      · exact .inr ⟨word, by simp, h⟩
      · rcases List.mem_append.1 h with h | h
        · exact .inl (List.mem_singleton.1 h)
        · rcases ih h with h | ⟨other, hother, h⟩
          · exact .inl h
          · exact .inr ⟨other, List.mem_cons_of_mem word hother, h⟩

variable {l : Line}

/-- Between the tabs and the end of a plain line there is no blank but those between words. -/
theorem Plain.ne_of_mem (hl : l.Plain) {c : Char} (hblank : isBlank c = true) (hspace : c ≠ ' ') :
    c ∉ [' '].intercalate (l.words.map String.toList) := by
  intro hc
  rcases blank_of_mem_intercalate hc with h | ⟨word, hword, h⟩
  · exact hspace h
  · rw [hl.solid word hword c h] at hblank
    cases hblank

theorem Plain.read_chars (hl : l.Plain) : read l.chars = l := by
  have htab : ∀ cs : List Char, '\t' ∉ cs → cs.takeWhile (· == '\t') = [] ∧ cs.dropWhile (· == '\t') = cs := by
    intro cs hcs
    cases cs with
    | nil => exact ⟨rfl, rfl⟩
    | cons c rest =>
      have hc : ¬ (c == '\t') = true := fun h => hcs (by simp [eq_of_beq h])
      exact ⟨List.takeWhile_cons_of_neg hc, List.dropWhile_cons_of_neg hc⟩
  obtain ⟨htake, hdrop⟩ := htab _ (hl.ne_of_mem (c := '\t') (by decide) (by decide))
  have htabs : ∀ c ∈ List.replicate l.depth '\t', (c == '\t') = true := fun c hc => by
    simp [List.eq_of_mem_replicate hc]
  have hspace : ∀ word ∈ l.words.map String.toList, ' ' ∉ word := fun word hword hc => by
    obtain ⟨w, hw, rfl⟩ := List.mem_map.1 hword
    exact absurd (hl.solid w hw ' ' hc) (by decide)
  have hwords : l.words.map String.toList ≠ [] := by simpa using hl.some
  rw [read, chars, List.takeWhile_append_of_pos htabs, List.dropWhile_append_of_pos htabs, htake, hdrop,
    List.splitOn_intercalate ' ' hspace hwords, List.append_nil, List.length_replicate, List.map_map]
  simp

/-- A text that was put together from plain lines falls into these. -/
theorem all_of_plain {text : String} {ls : List Line} (hls : ∀ l ∈ ls, l.Plain)
    (htext : text.toList = ls.flatMap fun l => l.chars ++ ['\n']) : all text = ls := by
  have hsplit : (ls.flatMap fun l => l.chars ++ ['\n']).splitOn '\n' = ls.map chars ++ [[]] := by
    clear htext
    induction ls with
    | nil => rfl
    | cons l rest ih =>
      have hend : '\n' ∉ l.chars := by
        rw [chars, List.mem_append]
        rintro (h | h)
        · exact absurd (List.eq_of_mem_replicate h) (by decide)
        · exact (hls l List.mem_cons_self).ne_of_mem (by decide) (by decide) h
      rw [List.flatMap_cons, List.append_assoc, List.singleton_append,
        List.splitOn_append_cons_self_of_not_mem hend, ih fun l hl => hls l (List.mem_cons_of_mem _ hl)]
      rfl
  rw [all, htext, hsplit, List.dropLast_concat, List.map_map]
  exact (List.map_congr_left fun l hl => (hls l hl).read_chars).trans (List.map_id' ls)

end Line

/-! ## Reports -/

/-- What is written about a plugin: its name, a number, and the interfaces that follow. -/
structure Block where
  name : String
  count : Nat
  interfaces : List String
  deriving Repr, DecidableEq

/-- What is written about an index; the numbers are those that stand there. -/
@[ext]
structure Report where
  interfaceCount : Nat
  interfaces : List String
  pluginCount : Nat
  blocks : List Block
  deriving Repr, DecidableEq

namespace Block

def lines (b : Block) : List Line :=
  ⟨2, ["[" ++ b.name ++ "]", "which", "implements", toString b.count,
      if b.count = 1 then "interface:" else "interfaces:"]⟩ ::
    b.interfaces.map fun i => ⟨3, [i]⟩

end Block

namespace Report

def title : Line := ⟨0, ["PluginLoader", "State"]⟩

def lines (r : Report) : List Line :=
  title :: ⟨1, ["Known", "Interfaces:", toString r.interfaceCount]⟩ ::
    ((r.interfaces.map fun i => ⟨2, [i]⟩) ++
      ⟨1, ["Known", "Plugins:", toString r.pluginCount]⟩ :: r.blocks.flatMap Block.lines)

/-- What is written for a plugin, under any spelling of its name. -/
def interfacesOf (r : Report) (plugin : String) : Option (List String) :=
  (r.blocks.find? fun b => b.name == Name.normalize plugin).map Block.interfaces

end Report

/-! ## Reading -/

namespace Line

/-- The number that a word of decimal digits writes. -/
def numeral? (word : String) : Option Nat :=
  if word.toList.all Char.isDigit then some (Nat.ofDigitChars 10 word.toList 0) else none

/-- The number that stands after the words `label`. -/
def number? (label : List String) (l : Line) : Option Nat :=
  if l.depth = 1 ∧ l.words.dropLast = label then l.words.getLast?.bind numeral? else none

def interface? (l : Line) : Option String :=
  match l.words with
  | [i] => some i
  | _ => none

/-- The name of a plugin, which stands in brackets, and the number of its interfaces. -/
def plugin? (l : Line) : Option (String × Nat) :=
  match l.words with
  | [label, which, implements, count, unit] =>
    if l.depth = 2 ∧ which = "which" ∧ implements = "implements" ∧ unit ∈ ["interface:", "interfaces:"] then
      (numeral? count).map fun n => (String.ofList label.toList.tail.dropLast, n)
    else none
  | _ => none

end Line

namespace Report

/-- Reads lines from the last one on: the interfaces in front of all plugins, and the plugins. -/
def readBlocks : List Line → Option (List String × List Block)
  | [] => some ([], [])
  | l :: rest => do
    let (pending, blocks) ← readBlocks rest
    if l.depth = 3 then
      let i ← l.interface?
      return (i :: pending, blocks)
    else
      let (name, count) ← l.plugin?
      return ([], ⟨name, count, pending⟩ :: blocks)

def ofLines : List Line → Option Report
  | first :: second :: rest =>
    match rest.dropWhile fun l => l.depth == 2 with
    | third :: plugins => do
      guard (first = title)
      let interfaceCount ← second.number? ["Known", "Interfaces:"]
      let interfaces ← (rest.takeWhile fun l => l.depth == 2).mapM Line.interface?
      let pluginCount ← third.number? ["Known", "Plugins:"]
      let (pending, blocks) ← readBlocks plugins
      guard (pending = [])
      return ⟨interfaceCount, interfaces, pluginCount, blocks⟩
    | [] => none
  | _ => none

def read (text : String) : Option Report := ofLines (Line.all text)

end Report

/-! ## Nothing gets lost -/

theorem Line.numeral?_toString (n : Nat) : numeral? (toString n) = some n := by
  have hdigits : (toString n).toList = Nat.toDigits 10 n := by
    rw [Nat.toString_eq_repr, Nat.toList_repr]
  have hall : (Nat.toDigits 10 n).all Char.isDigit = true :=
    List.all_eq_true.2 fun c hc => Nat.isDigit_of_mem_toDigits (by decide) (by decide) hc
  rw [numeral?, hdigits, if_pos hall, Nat.ofDigitChars_ten_toDigits]

theorem Line.number?_toString (label : List String) (n : Nat) :
    number? label ⟨1, label ++ [toString n]⟩ = some n := by
  simp only [number?, List.dropLast_concat, List.getLast?_concat, and_self, if_true, Option.bind_some,
    numeral?_toString]

theorem Block.plugin?_head (b : Block) (unit : String) (hunit : unit ∈ ["interface:", "interfaces:"]) :
    Line.plugin? ⟨2, ["[" ++ b.name ++ "]", "which", "implements", toString b.count, unit]⟩ =
      some (b.name, b.count) := by
  have hname : String.ofList ("[" ++ b.name ++ "]").toList.tail.dropLast = b.name := by
    simp [String.toList_append]
  simp only [Line.plugin?, hunit, and_self, if_true, Line.numeral?_toString, Option.map_some, hname]

namespace Report

theorem readBlocks_interfaces {lines : List Line} {blocks : List Block} {interfaces : List String}
    (h : readBlocks lines = some ([], blocks)) :
    readBlocks ((interfaces.map fun i => ⟨3, [i]⟩) ++ lines) = some (interfaces, blocks) := by
  induction interfaces with
  | nil => exact h
  | cons i rest ih =>
    rw [List.map_cons, List.cons_append, readBlocks, ih]
    rfl

theorem readBlocks_lines (blocks : List Block) :
    readBlocks (blocks.flatMap Block.lines) = some ([], blocks) := by
  induction blocks with
  | nil => rfl
  | cons b rest ih =>
    have hunit : (if b.count = 1 then "interface:" else "interfaces:") ∈ ["interface:", "interfaces:"] := by
      split <;> simp
    rw [List.flatMap_cons, Block.lines, List.cons_append, readBlocks, readBlocks_interfaces ih]
    simp only [Option.bind_eq_bind, Option.bind_some, b.plugin?_head _ hunit]
    rfl

theorem mapM_interface? (interfaces : List String) (depth : Nat) :
    (interfaces.map fun i => (⟨depth, [i]⟩ : Line)).mapM Line.interface? = some interfaces := by
  induction interfaces with
  | nil => rfl
  | cons i rest ih =>
    rw [List.map_cons, List.mapM_cons, ih]
    rfl

theorem ofLines_lines (r : Report) : ofLines r.lines = some r := by
  have hinterfaces : ∀ l ∈ r.interfaces.map fun i => (⟨2, [i]⟩ : Line), (l.depth == 2) = true := by
    intro l hl
    obtain ⟨i, -, rfl⟩ := List.mem_map.1 hl
    rfl
  have hstop : ∀ (l : Line) rest, (l.depth == 2) = false →
      ((l :: rest).takeWhile fun l => l.depth == 2) = [] ∧
        ((l :: rest).dropWhile fun l => l.depth == 2) = l :: rest := fun l rest hl => by simp [hl]
  obtain ⟨htake, hdrop⟩ := hstop ⟨1, ["Known", "Plugins:", toString r.pluginCount]⟩
    (r.blocks.flatMap Block.lines) rfl
  rw [lines, ofLines, List.dropWhile_append_of_pos hinterfaces, List.takeWhile_append_of_pos hinterfaces,
    htake, hdrop, List.append_nil]
  have hfirst : Line.number? ["Known", "Interfaces:"]
      ⟨1, ["Known", "Interfaces:", toString r.interfaceCount]⟩ = some r.interfaceCount :=
    Line.number?_toString ["Known", "Interfaces:"] _
  have hsecond : Line.number? ["Known", "Plugins:"]
      ⟨1, ["Known", "Plugins:", toString r.pluginCount]⟩ = some r.pluginCount :=
    Line.number?_toString ["Known", "Plugins:"] _
  dsimp only
  rw [hfirst, hsecond, mapM_interface?, readBlocks_lines]
  rfl

end Report

end PluginHost
