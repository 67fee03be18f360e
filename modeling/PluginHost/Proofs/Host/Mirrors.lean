import Mathlib.Order.Monotone.Basic
import PluginHost.Proofs.Host.Restored
import PluginHost.Proofs.Host.Strings

/-!
# Hosts that mirror each other

Identities are handed out in order and mean nothing else, so two hosts that differ in them do the same. One may
also know a mapping under more strings than the other, as long as the files lead there anyway: whether such a
string is known makes no difference while the files stay.

* `Table.Mirrors`: two tables with other keys; `shifted`: keys that are further from a number on.
* `Mapping.Mirrors`: one mapping under more strings.
* `Host.Mirrors`: two hosts with other identities.
* `Host.Mirrors.locate`: paths lead to mirrored mappings.
* `Host.Mirrors.hold`, `Host.Mirrors.releaseLibrary`, …: it is kept by what happens on both sides.
-/

namespace PluginHost

set_option autoImplicit false

open PluginHost.Table

/-! ## Tables -/

/-- The second table is the first with the keys that the function gives, entry by entry. -/
structure Table.Mirrors {ν μ : Type} (σ : Nat → Nat) (R : ν → μ → Prop) (t : Table Nat ν)
    (t' : Table Nat μ) : Prop where
  there : ∀ id v, find? t id = some v → ∃ v', find? t' (σ id) = some v' ∧ R v v'
  back : ∀ id v', find? t' id = some v' → ∃ i v, id = σ i ∧ find? t i = some v ∧ R v v'

namespace Table.Mirrors

variable {ν μ : Type} {σ : Nat → Nat} {R : ν → μ → Prop} {t : Table Nat ν} {t' : Table Nat μ}

theorem refl {R : ν → ν → Prop} (hR : ∀ v, R v v) (t : Table Nat ν) : Table.Mirrors id R t t where
  there := fun _ v hv => ⟨v, hv, hR v⟩
  back := fun i v hv => ⟨i, v, rfl, hv, hR v⟩

theorem find?_eq_none (hm : Table.Mirrors σ R t t') (hσ : Function.Injective σ) {id : Nat}
    (hnone : find? t id = none) : find? t' (σ id) = none := by
  cases hv' : find? t' (σ id) with
  | none => rfl
  | some v' =>
    obtain ⟨i, v, hi, hv, -⟩ := hm.back _ _ hv'
    rw [← hσ hi, hnone] at hv
    cases hv

theorem put (hm : Table.Mirrors σ R t t') (hσ : Function.Injective σ) (id : Nat) {v : ν} {v' : μ}
    (hR : R v v') : Table.Mirrors σ R (t.put id v) (t'.put (σ id) v') where
  there := by
    intro j w hw
    simp only [find?_put, beq_iff_eq, hσ.eq_iff] at hw ⊢
    by_cases hj : id = j
    · rw [if_pos hj] at hw ⊢
      exact ⟨v', rfl, Option.some.inj hw ▸ hR⟩
    · rw [if_neg hj] at hw ⊢
      exact hm.there j w hw
  back := by
    intro j w hw
    simp only [find?_put, beq_iff_eq] at hw ⊢
    split at hw
    · next heq => exact ⟨id, v, heq.symm, by simp, Option.some.inj hw ▸ hR⟩
    · next hne =>
      obtain ⟨i, u, rfl, hu, hRu⟩ := hm.back j w hw
      exact ⟨i, u, rfl, by rw [if_neg fun heq => hne (congrArg σ heq), hu], hRu⟩

theorem erase (hm : Table.Mirrors σ R t t') (hσ : Function.Injective σ) (id : Nat) :
    Table.Mirrors σ R (t.erase id) (t'.erase (σ id)) where
  there := by
    intro j w hw
    simp only [find?_erase, beq_iff_eq, hσ.eq_iff] at hw ⊢
    by_cases hj : id = j
    · rw [if_pos hj] at hw
      cases hw
    · rw [if_neg hj] at hw ⊢
      exact hm.there j w hw
  back := by
    intro j w hw
    simp only [find?_erase, beq_iff_eq] at hw ⊢
    split at hw
    · cases hw
    · next hne =>
      obtain ⟨i, u, rfl, hu, hRu⟩ := hm.back j w hw
      exact ⟨i, u, rfl, by rw [if_neg fun heq => hne (congrArg σ heq), hu], hRu⟩

end Table.Mirrors

/-- Identities from `n` on are `d` further. -/
def shifted (n d id : Nat) : Nat := if id < n then id else id + d

theorem shifted_of_lt {n id : Nat} (d : Nat) (hid : id < n) : shifted n d id = id := if_pos hid

theorem shifted_add (n d i : Nat) : shifted n d (n + i) = n + d + i := by
  unfold shifted
  split <;> omega

theorem strictMono_shifted (n d : Nat) : StrictMono (shifted n d) := by
  intro i j hij
  unfold shifted
  split <;> split <;> omega

/-- Where all keys are below, a shift makes no difference. -/
theorem Table.Mirrors.shifted {ν μ : Type} {R : ν → μ → Prop} {t : Table Nat ν} {t' : Table Nat μ}
    (hm : Table.Mirrors id R t t') {n : Nat} (hbelow : t.Below n) (d : Nat) :
    Table.Mirrors (shifted n d) R t t' where
  there := by
    intro i v hv
    rw [shifted_of_lt d (hbelow.lt hv)]
    exact hm.there i v hv
  back := by
    intro i v' hv'
    obtain ⟨_, v, rfl, hv, hR⟩ := hm.back i v' hv'
    exact ⟨i, v, (shifted_of_lt d (hbelow.lt hv)).symm, hv, hR⟩

/-! ## Mappings and libraries -/

/-- The second mapping is the first with other strings: it is known under those of the first, and where the files
lead to its file anyway. -/
structure Mapping.Mirrors (files : FileTree) (m m' : Mapping) : Prop where
  file : m'.file = m.file
  image : m'.image = m.image
  holds : m'.holds = m.holds
  names : m.names ⊆ m'.names
  leads : ∀ text ∈ m'.names, text ∈ m.names ∨
    ∃ image, files.file? ⟨text⟩ = some ⟨m.file, .library image⟩

namespace Mapping.Mirrors

variable {files : FileTree} {m m' : Mapping}

theorem refl (files : FileTree) (m : Mapping) : m.Mirrors files m :=
  ⟨rfl, rfl, rfl, List.Subset.refl _, fun _ htext => .inl htext⟩

/-- Both get one more string. -/
theorem append (hm : m.Mirrors files m') (text : String) :
    Mapping.Mirrors files { m with names := m.names ++ [text] } { m' with names := m'.names ++ [text] } where
  file := hm.file
  image := hm.image
  holds := hm.holds
  names := List.append_subset.2 ⟨List.subset_append_of_subset_left _ hm.names, List.subset_append_right _ _⟩
  leads := by
    intro other hother
    rcases List.mem_append.1 hother with hother | hother
    · exact (hm.leads other hother).imp_left (List.mem_append_left _)
    · exact .inl (List.mem_append_right _ hother)

/-- The first gets a string that the second is known under. -/
theorem append_left (hm : m.Mirrors files m') {text : String} (htext : text ∈ m'.names) :
    Mapping.Mirrors files { m with names := m.names ++ [text] } m' where
  file := hm.file
  image := hm.image
  holds := hm.holds
  names := List.append_subset.2 ⟨hm.names, by simpa using htext⟩
  leads := fun other hother => (hm.leads other hother).imp_left (List.mem_append_left _)

/-- The second gets a string that leads there anyway. -/
theorem append_right (hm : m.Mirrors files m') {text : String} {image : Image}
    (hfile : files.file? ⟨text⟩ = some ⟨m.file, .library image⟩) :
    Mapping.Mirrors files m { m' with names := m'.names ++ [text] } where
  file := hm.file
  image := hm.image
  holds := hm.holds
  names := List.subset_append_of_subset_left _ hm.names
  leads := by
    intro other hother
    rcases List.mem_append.1 hother with hother | hother
    · exact hm.leads other hother
    · rw [List.mem_singleton.1 hother]
      exact .inr ⟨image, hfile⟩

theorem withHolds (hm : m.Mirrors files m') (change : Nat → Nat) :
    Mapping.Mirrors files { m with holds := change m.holds } { m' with holds := change m'.holds } :=
  ⟨hm.file, hm.image, congrArg change hm.holds, hm.names, hm.leads⟩

end Mapping.Mirrors

def Record.Mirrors (r r' : Record) : Prop := r'.references = r.references

/-- The library with other identities. -/
def Library.renamed (σ : Nat → Nat) (l : Library) : Library :=
  { l with id := σ l.id, origin := { l.origin with mapping := σ l.origin.mapping } }

namespace Host

/-! ## Hosts -/

/-- The second host is the first with other identities, which come in the same order, and perhaps with more
strings for its mappings. -/
structure Mirrors (σ : Nat → Nat) (h h' : Host) : Prop where
  mono : StrictMono σ
  fresh : ∀ i, σ (h.fresh + i) = h'.fresh + i
  files : h'.files = h.files
  mappings : Table.Mirrors σ (Mapping.Mirrors h.files) h.mappings h'.mappings
  records : Table.Mirrors σ Record.Mirrors h.records h'.records

namespace Mirrors

variable {σ : Nat → Nat} {h h' : Host}

theorem log (hm : h.Mirrors σ h') (e e' : Event) : (h.log e).Mirrors σ (h'.log e') :=
  ⟨hm.mono, hm.fresh, hm.files, hm.mappings, hm.records⟩

theorem log_right (hm : h.Mirrors σ h') (e : Event) : h.Mirrors σ (h'.log e) :=
  ⟨hm.mono, hm.fresh, hm.files, hm.mappings, hm.records⟩

/-! ## Holds on mappings -/

/-- A path leads to mirrored mappings, or on both sides nowhere. -/
theorem locate (hm : h.Mirrors σ h') (hu : h.Unambiguous) (hu' : h'.Unambiguous) (p : Path) :
    (h.locate p = none ∧ h'.locate p = none) ∨
      ∃ id m m', h.locate p = some (id, m) ∧ h'.locate p = some (σ id, m') ∧ id ≤ h.fresh ∧
        m.Mirrors h.files m' := by
  by_cases hslash : p.hasSlash = true
  · simp only [Host.locate, hslash, if_true, hm.files]
    cases hknown : h.knownAs p.text with
    | some found =>
      obtain ⟨id, m⟩ := found
      have hfound := hu.separate.find?_of_knownAs hknown
      obtain ⟨m', hfound', hmirrors⟩ := hm.mappings.there id m hfound
      have htext : p.text ∈ m.names := by simpa using List.find?_some hknown
      refine .inr ⟨id, m, m', rfl, ?_, (hu.separate.below.lt hfound).le, hmirrors⟩
      rw [hu'.knownAs hfound' (hmirrors.names htext)]
    | none =>
      cases hknown' : h'.knownAs p.text with
      | some found =>
        obtain ⟨id', m'⟩ := found
        obtain ⟨id, m, rfl, hfound, hmirrors⟩ := hm.mappings.back id' m' (hu'.separate.find?_of_knownAs hknown')
        have htext : p.text ∈ m'.names := by simpa using List.find?_some hknown'
        obtain ⟨image, hfile⟩ :=
          (hmirrors.leads p.text htext).resolve_left (not_mem_names_of_knownAs hknown hfound)
        have hfile : h.files.file? p = some ⟨m.file, .library image⟩ := hfile
        refine .inr ⟨id, _, m', ?_, rfl, (hu.separate.below.lt hfound).le, hmirrors.append_left htext⟩
        simp only [hfile, hu.separate.mappedFrom_eq hfound]
      | none =>
        cases hfile : h.files.file? p with
        | none => exact .inl ⟨rfl, rfl⟩
        | some found =>
          obtain ⟨file, _ | image⟩ := found
          · exact .inl ⟨rfl, rfl⟩
          simp only
          cases hmapped : h.mappedFrom file with
          | some found =>
            obtain ⟨id, m⟩ := found
            obtain ⟨hfound, rfl⟩ := hu.separate.find?_of_mappedFrom hmapped
            obtain ⟨m', hfound', hmirrors⟩ := hm.mappings.there id m hfound
            refine .inr ⟨id, _, _, rfl, ?_, (hu.separate.below.lt hfound).le, hmirrors.append p.text⟩
            rw [← hmirrors.file, hu'.separate.mappedFrom_eq hfound']
          | none =>
            have hmapped' : h'.mappedFrom file = none := by
              cases hmapped' : h'.mappedFrom file with
              | none => rfl
              | some found =>
                obtain ⟨hfound', hsame⟩ := hu'.separate.find?_of_mappedFrom hmapped'
                obtain ⟨id, m, -, hfound, hmirrors⟩ := hm.mappings.back _ _ hfound'
                have hthere := hu.separate.mappedFrom_eq hfound
                rw [← hmirrors.file, hsame, hmapped] at hthere
                cases hthere
            have hfresh : h'.fresh = σ h.fresh := (hm.fresh 0).symm
            refine .inr ⟨h.fresh, _, _, rfl, ?_, Nat.le_refl _, .refl _ _⟩
            rw [hmapped', hfresh]
  · exact .inl ⟨by simp [Host.locate, hslash], by simp [Host.locate, hslash]⟩

theorem hold (hm : h.Mirrors σ h') {id : Nat} (hid : id ≤ h.fresh) {m m' : Mapping}
    (hmirrors : m.Mirrors h.files m') : (h.hold id m).Mirrors σ (h'.hold (σ id) m') where
  mono := hm.mono
  fresh := by
    intro i
    have hzero : σ h.fresh = h'.fresh := hm.fresh 0
    show σ (max h.fresh (id + 1) + i) = max h'.fresh (σ id + 1) + i
    rcases Nat.lt_or_eq_of_le hid with hlt | rfl
    · have hlt' : σ id < h'.fresh := hzero ▸ hm.mono hlt
      rw [Nat.max_eq_left hlt, Nat.max_eq_left hlt', hm.fresh]
    · rw [hzero, Nat.max_eq_right (Nat.le_succ _), Nat.max_eq_right (Nat.le_succ _)]
      rw [Nat.succ_eq_add_one, Nat.add_assoc, hm.fresh, ← Nat.add_assoc]
  files := hm.files
  mappings := hm.mappings.put hm.mono.injective id (hmirrors.withHolds (· + 1))
  records := hm.records

theorem closeMapping (hm : h.Mirrors σ h') (id : Nat) :
    (h.closeMapping id).Mirrors σ (h'.closeMapping (σ id)) := by
  have hσ := hm.mono.injective
  unfold Host.closeMapping
  cases hfound : h.mappings.find? id with
  | none =>
    rw [hm.mappings.find?_eq_none hσ hfound]
    exact hm
  | some m =>
    obtain ⟨m', hfound', hmirrors⟩ := hm.mappings.there id m hfound
    simp only [hfound', hmirrors.holds]
    refine log ?_ _ _
    split
    · exact { hm with mappings := hm.mappings.erase hσ id }
    · have hput := hm.mappings.put hσ id (hmirrors.withHolds (· - 1))
      rw [hmirrors.holds] at hput
      exact { hm with mappings := hput }

/-- A library that is opened and closed again leaves its mapping, if it was in memory, under one more string at
most, which leads there anyway. -/
theorem closeMapping_hold {referred : Multiset Library} {held : Multiset Instance}
    (hb : h.Balanced 0 referred held) (hs : h.Separate) {p : Path} {i : Nat} {m : Mapping}
    (hp : h.locate p = some (i, m)) : Table.Mirrors id (Mapping.Mirrors h.files) h.mappings
      ((h.hold i m).closeMapping i).mappings := by
  have hrefl : Table.Mirrors id (Mapping.Mirrors h.files) h.mappings h.mappings :=
    .refl (Mapping.Mirrors.refl h.files) h.mappings
  rcases mappings_closeMapping_hold hb hp with heq | ⟨m₀, hm₀, -, heq⟩
  · rw [heq]
    exact hrefl
  · have hmirrors : m₀.Mirrors h.files m := by
      rcases locate_cases hp with hknown | ⟨-, file, image, hfile, ⟨m₁, hmapped, rfl⟩ | ⟨-, rfl, -⟩⟩
      · have hm := hs.find?_of_knownAs hknown
        rw [hm₀] at hm
        rw [Option.some.inj hm]
        exact .refl h.files m
      · obtain ⟨hm₁, rfl⟩ := hs.find?_of_mappedFrom hmapped
        rw [hm₀] at hm₁
        obtain rfl := Option.some.inj hm₁
        exact (Mapping.Mirrors.refl h.files m₀).append_right hfile
      · rw [hb.fresh.1.self] at hm₀
        cases hm₀
    have hput := hrefl.put Function.injective_id i hmirrors
    rw [put_of_find? hm₀] at hput
    rw [heq]
    exact hput

/-! ## References to libraries -/

theorem newLibrary (hm : h.Mirrors σ h') (path : Path) (plugins : List String) (o : Origin) :
    (h'.newLibrary path plugins { o with mapping := σ o.mapping }).1 =
        (h.newLibrary path plugins o).1.renamed σ ∧
      (h.newLibrary path plugins o).2.Mirrors σ
        (h'.newLibrary path plugins { o with mapping := σ o.mapping }).2 := by
  have hfresh : h'.fresh = σ h.fresh := (hm.fresh 0).symm
  refine ⟨by simp only [Host.newLibrary, Library.renamed, hfresh], ?_⟩
  refine { hm with fresh := fun i => ?_, records := ?_ }
  · show σ (h.fresh + 1 + i) = h'.fresh + 1 + i
    rw [Nat.add_assoc, hm.fresh, Nat.add_assoc]
  · simp only [Host.newLibrary, hfresh]
    exact hm.records.put hm.mono.injective h.fresh rfl

theorem retainLibrary (hm : h.Mirrors σ h') (l : Library) :
    (h.retainLibrary l).Mirrors σ (h'.retainLibrary (l.renamed σ)) := by
  have hσ := hm.mono.injective
  simp only [Host.retainLibrary, Library.renamed]
  cases hfound : h.records.find? l.id with
  | none =>
    rw [hm.records.find?_eq_none hσ hfound]
    exact hm
  | some r =>
    obtain ⟨r', hfound', hsame⟩ := hm.records.there l.id r hfound
    rw [hfound']
    exact { hm with records := hm.records.put hσ l.id (congrArg (· + 1) hsame) }

theorem releaseLibrary (hm : h.Mirrors σ h') (l : Library) :
    (h.releaseLibrary l).Mirrors σ (h'.releaseLibrary (l.renamed σ)) := by
  have hσ := hm.mono.injective
  simp only [Host.releaseLibrary, Library.renamed]
  cases hfound : h.records.find? l.id with
  | none =>
    rw [hm.records.find?_eq_none hσ hfound]
    exact hm
  | some r =>
    obtain ⟨r', hfound', hsame⟩ := hm.records.there l.id r hfound
    have hsame : r'.references = r.references := hsame
    simp only [hfound', hsame]
    split
    · have herased : Mirrors σ { h with records := h.records.erase l.id }
          { h' with records := h'.records.erase (σ l.id) } :=
        { hm with records := hm.records.erase hσ l.id }
      exact (herased.log _ _).closeMapping l.origin.mapping
    · have hput : Table.Mirrors σ Record.Mirrors (h.records.put l.id { r with references := r.references - 1 })
          (h'.records.put (σ l.id) { r' with references := r.references - 1 }) :=
        hm.records.put hσ l.id rfl
      exact { hm with records := hput }

end Mirrors

end Host

end PluginHost
