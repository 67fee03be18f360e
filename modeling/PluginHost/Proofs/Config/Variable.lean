import PluginHost.Config
import PluginHost.Proofs.Text.Trim

/-!
# What the texts of variables say

A policy and an answer are words, in any case and between any blanks. A list of libraries is what stands
between the colons of a text, so paths that hold no colon come back from the text that joins them.

* `Text.Spells`, `Text.Lists`: a text that is a word, and one that lists pieces.
* `DuplicatePolicy.Says`, `Answers`, `Path.Listed`: what the texts of the three variables say.
* `Reads`: reading a text is finding what it says, or the error that names the variable and the text.
* `splitPaths_joinPaths`: reading the paths that were joined.
-/

namespace PluginHost

set_option autoImplicit false

open PluginHost.Text

/-! ## Reading a text -/

/-- `parse` finds what a text of the variable `name` says, and refuses a text that says nothing. -/
structure Reads {α : Type} (parse : String → Except ConfigError α) (name : String)
    (Says : String → α → Prop) : Prop where
  found : ∀ {s : String} {v : α}, Says s v → parse s = .ok v
  refused : ∀ {s : String}, (∀ v, ¬ Says s v) → parse s = .error (.invalidValue name s)

namespace Reads

variable {α : Type} {parse : String → Except ConfigError α} {name : String} {Says : String → α → Prop}
  {s : String}

/-- A text says one thing at most. -/
theorem unique (h : Reads parse name Says) {v v' : α} (hv : Says s v) (hv' : Says s v') : v = v' :=
  Except.ok.inj ((h.found hv).symm.trans (h.found hv'))

theorem ok_iff (h : Reads parse name Says) {v : α} : parse s = .ok v ↔ Says s v := by
  refine ⟨fun hok => ?_, h.found⟩
  by_cases hsays : ∃ v', Says s v'
  · obtain ⟨v', hv'⟩ := hsays
    obtain rfl : v' = v := Except.ok.inj ((h.found hv').symm.trans hok)
    exact hv'
  · rw [h.refused (not_exists.1 hsays)] at hok
    cases hok

theorem error_iff (h : Reads parse name Says) {e : ConfigError} :
    parse s = .error e ↔ (∀ v, ¬ Says s v) ∧ e = .invalidValue name s := by
  constructor
  · intro herror
    have hnone : ∀ v, ¬ Says s v := fun v hv => by
      rw [h.found hv] at herror
      cases herror
    exact ⟨hnone, Except.error.inj (herror.symm.trans (h.refused hnone))⟩
  · rintro ⟨hnone, rfl⟩
    exact h.refused hnone

end Reads

/-! ## Words -/

/-- The text is the word, with blanks around it and capitals in it or not. -/
def Text.Spells (s word : String) : Prop :=
  ∃ core, Between core s.toList ∧ Flush core ∧ Lowered core word.toList

theorem plainWord_eq_iff {s word : String} : plainWord s = word.toList ↔ Spells s word :=
  lowerAscii_trim_eq_iff

namespace DuplicatePolicy

def word : DuplicatePolicy → String
  | .overwrite => "overwrite"
  | .reject => "reject"

def Says (s : String) (p : DuplicatePolicy) : Prop := Spells s p.word

theorem says_iff {s : String} {p : DuplicatePolicy} : Says s p ↔ plainWord s = p.word.toList :=
  plainWord_eq_iff.symm

theorem reads : Reads parse Variable.duplicatePolicy Says where
  found {s p} h := by
    have hword := says_iff.1 h
    cases p with
    | overwrite => exact if_pos hword
    | reject =>
      have hother : ¬ plainWord s = "overwrite".toList := by
        rw [hword]
        decide
      exact (if_neg hother).trans (if_pos hword)
  refused h := (if_neg (mt says_iff.2 (h .overwrite))).trans (if_neg (mt says_iff.2 (h .reject)))

end DuplicatePolicy

/-- The words that mean an answer. -/
def answerWords : Bool → List String
  | true => yesWords
  | false => noWords

def Answers (s : String) (b : Bool) : Prop := ∃ word ∈ answerWords b, Spells s word

theorem answers_iff {s : String} {b : Bool} :
    Answers s b ↔ plainWord s ∈ (answerWords b).map String.toList := by
  rw [List.mem_map]
  constructor
  · rintro ⟨word, hword, hspells⟩
    exact ⟨word, hword, (plainWord_eq_iff.2 hspells).symm⟩
  · rintro ⟨word, hword, heq⟩
    exact ⟨word, hword, plainWord_eq_iff.1 heq.symm⟩

theorem reads_parseFlag (key : String) : Reads (parseFlag key) key Answers where
  found {s b} h := by
    have hword := answers_iff.1 h
    cases b with
    | true => exact if_pos hword
    | false =>
      have hapart : ∀ word ∈ noWords.map String.toList, ¬ word ∈ yesWords.map String.toList := by decide
      exact (if_neg (hapart _ hword)).trans (if_pos hword)
  refused h := (if_neg (mt answers_iff.2 (h true))).trans (if_neg (mt answers_iff.2 (h false)))

/-! ## Pieces between colons -/

/-- The pieces are the longest ones of the text that are not empty and hold no colon, in their order: in front
of each, and behind the last, there are colons only. -/
inductive Text.Lists : List Char → List (List Char) → Prop
  | nothing (n : Nat) : Lists (List.replicate n ':') []
  | piece (n : Nat) {piece rest : List Char} {more : List (List Char)} : piece ≠ [] → ':' ∉ piece →
      (∀ c ∈ rest.head?, c = ':') → Lists rest more →
      Lists (List.replicate n ':' ++ piece ++ rest) (piece :: more)

/-- The pieces of a text that are not empty. -/
def pieces (cs : List Char) : List (List Char) := (splitColons cs).filter fun piece => !piece.isEmpty

theorem splitColons_ne_nil (cs : List Char) : splitColons cs ≠ [] := by
  cases cs with
  | nil => exact List.cons_ne_nil _ _
  | cons c cs =>
    rw [splitColons]
    split
    · exact List.cons_ne_nil _ _
    · split <;> exact List.cons_ne_nil _ _

theorem splitColons_append_colon (cs ds : List Char) :
    splitColons (cs ++ ':' :: ds) = splitColons cs ++ splitColons ds := by
  induction cs with
  | nil => rfl
  | cons c cs ih =>
    rw [List.cons_append, splitColons, splitColons, ih]
    split
    · rfl
    · cases hcs : splitColons cs with
      | nil => exact absurd hcs (splitColons_ne_nil cs)
      | cons piece more => rfl

theorem splitColons_of_notMem {cs : List Char} (h : ':' ∉ cs) : splitColons cs = [cs] := by
  induction cs with
  | nil => rfl
  | cons c cs ih =>
    obtain ⟨hc, hcs⟩ := not_or.1 (mt List.mem_cons.2 h)
    rw [splitColons, if_neg (Ne.symm hc), ih hcs]

theorem pieces_append_colon (cs ds : List Char) : pieces (cs ++ ':' :: ds) = pieces cs ++ pieces ds := by
  rw [pieces, splitColons_append_colon, List.filter_append]
  rfl

theorem pieces_colons_append (n : Nat) (cs : List Char) :
    pieces (List.replicate n ':' ++ cs) = pieces cs := by
  induction n with
  | zero => rfl
  | succ n ih => exact (pieces_append_colon [] _).trans ih

theorem pieces_piece {piece : List Char} (hne : piece ≠ []) (hcolon : ':' ∉ piece) :
    pieces piece = [piece] := by
  rw [pieces, splitColons_of_notMem hcolon, List.filter_cons_of_pos (by simpa using hne), List.filter_nil]

theorem Text.Lists.pieces_eq {cs : List Char} {found : List (List Char)} (h : Lists cs found) :
    pieces cs = found := by
  induction h with
  | nothing n =>
    have hcolons := pieces_colons_append n []
    rwa [List.append_nil] at hcolons
  | @piece n piece rest more hne hcolon hrest _ ih =>
    rw [List.append_assoc, pieces_colons_append]
    cases rest with
    | nil => rw [List.append_nil, pieces_piece hne hcolon, ← ih]; rfl
    | cons c rest =>
      obtain rfl : c = ':' := hrest c rfl
      have hrest' : pieces (':' :: rest) = pieces rest := pieces_colons_append 1 rest
      rw [pieces_append_colon, pieces_piece hne hcolon, ← hrest', ih]
      rfl

theorem Text.Lists.cons_colon {cs : List Char} {found : List (List Char)} (h : Lists cs found) :
    Lists (':' :: cs) found := by
  cases h with
  | nothing n => exact .nothing (n + 1)
  | piece n hne hcolon hrest hmore => exact .piece (n + 1) hne hcolon hrest hmore

theorem Text.exists_lists (cs : List Char) : ∃ found, Lists cs found := by
  induction cs with
  | nil => exact ⟨[], .nothing 0⟩
  | cons c cs ih =>
    obtain ⟨found, h⟩ := ih
    by_cases hc : c = ':'
    · subst hc
      exact ⟨found, h.cons_colon⟩
    have hnot : ∀ {piece : List Char}, ':' ∉ piece → ':' ∉ c :: piece := fun hpiece =>
      mt List.mem_cons.1 (not_or.2 ⟨Ne.symm hc, hpiece⟩)
    -- `c` makes the first piece longer when that one is right behind it, and else is a piece
    cases h with
    | nothing n =>
      refine ⟨[[c]], .piece 0 (List.cons_ne_nil _ _) (hnot List.not_mem_nil) (fun d hd => ?_) (.nothing n)⟩
      exact List.eq_of_mem_replicate (List.mem_of_mem_head? hd)
    | @piece n piece rest more hne hcolon hrest hmore =>
      cases n with
      | zero => exact ⟨_, .piece 0 (List.cons_ne_nil c piece) (hnot hcolon) hrest hmore⟩
      | succ n =>
        refine ⟨_, .piece 0 (List.cons_ne_nil c []) (hnot List.not_mem_nil) (fun d hd => ?_)
          (.piece (n + 1) hne hcolon hrest hmore)⟩
        exact (Option.some.inj hd).symm

theorem Text.lists_iff {cs : List Char} {found : List (List Char)} : Lists cs found ↔ pieces cs = found := by
  refine ⟨Lists.pieces_eq, ?_⟩
  rintro rfl
  obtain ⟨found, h⟩ := exists_lists cs
  rw [h.pieces_eq]
  exact h

/-! ## Lists of paths -/

/-- The text lists the paths. -/
def Path.Listed (s : String) (ps : List Path) : Prop := Lists s.toList (ps.map fun p => p.text.toList)

theorem splitPaths_eq (s : String) :
    splitPaths s = (pieces s.toList).map fun piece => ⟨String.ofList piece⟩ := rfl

theorem splitPaths_eq_iff {s : String} {ps : List Path} : splitPaths s = ps ↔ Path.Listed s ps := by
  rw [Path.Listed, lists_iff, splitPaths_eq]
  constructor
  · rintro rfl
    simp [Function.comp_def]
  · intro h
    rw [h]
    simp [Function.comp_def]

theorem reads_splitPaths (name : String) : Reads (fun s => .ok (splitPaths s)) name Path.Listed where
  found h := congrArg Except.ok (splitPaths_eq_iff.2 h)
  refused {s} h := absurd (splitPaths_eq_iff.1 rfl) (h (splitPaths s))

/-- The paths joined by colons: `lead` colons too many in front, and after each path as many as it says. -/
def joinPaths (lead : Nat) (paths : List (Path × Nat)) : String :=
  String.ofList (List.replicate lead ':' ++
    [':'].intercalate (paths.map fun e => e.1.text.toList ++ List.replicate e.2 ':'))

theorem listed_joinPaths (lead : Nat) {paths : List (Path × Nat)}
    (h : ∀ e ∈ paths, e.1.text ≠ "" ∧ ':' ∉ e.1.text.toList) :
    Path.Listed (joinPaths lead paths) (paths.map Prod.fst) := by
  rw [Path.Listed, joinPaths, String.toList_ofList]
  induction paths generalizing lead with
  | nil =>
    rw [List.map_nil, List.intercalate_nil, List.append_nil]
    exact .nothing lead
  | cons e rest ih =>
    obtain ⟨hne, hcolon⟩ := h e List.mem_cons_self
    have hpath : e.1.text.toList ≠ [] := fun hnil => hne (String.toList_eq_nil_iff.1 hnil)
    cases rest with
    | nil =>
      rw [List.map_cons, List.map_nil, List.intercalate_singleton, ← List.append_assoc]
      exact .piece lead hpath hcolon
        (fun c hc => List.eq_of_mem_replicate (List.mem_of_mem_head? hc)) (.nothing e.2)
    | cons next rest =>
      have hrest := ih (e.2 + 1) fun e' he' => h e' (List.mem_cons_of_mem e he')
      rw [List.map_cons, List.map_cons, List.intercalate_cons_cons]
      -- the colon that joins is one more of those behind the path
      have htext : ∀ tail : List Char, List.replicate lead ':' ++
          (e.1.text.toList ++ List.replicate e.2 ':' ++ [':'] ++ tail) =
          List.replicate lead ':' ++ e.1.text.toList ++ (List.replicate (e.2 + 1) ':' ++ tail) := by
        intro tail
        rw [List.replicate_succ']
        simp only [List.append_assoc]
      rw [htext]
      exact .piece lead hpath hcolon (fun c hc => (Option.some.inj hc).symm) hrest

/-- Paths that are not empty and hold no colon come back from the text that joins them, with any colons too
many in front, behind and between. -/
theorem splitPaths_joinPaths (lead : Nat) {paths : List (Path × Nat)}
    (h : ∀ e ∈ paths, e.1.text ≠ "" ∧ ':' ∉ e.1.text.toList) :
    splitPaths (joinPaths lead paths) = paths.map Prod.fst :=
  splitPaths_eq_iff.2 (listed_joinPaths lead h)

example : joinPaths 1 [(⟨"/w/a.so"⟩, 0), (⟨"b.so"⟩, 2)] = ":/w/a.so:b.so::" := by decide

end PluginHost
