import PluginHost.Proofs.Host.Evolution

/-!
# Opening and closing again

A library that is opened, read and closed again leaves the host as it was: the same libraries, the same
instances, and the same mappings with the same holds, also if the file was mapped already. What remains is
in the journal, where nothing but the reading of descriptors is written down, and in the strings that a
mapping is known under.

* `Host.Reads`: something is said, and descriptors are asked for.
* `Host.Restored`: what is left as it was.
* `Host.restored_of_reads`: opening, reading and closing restores the host.
-/

namespace PluginHost

set_option autoImplicit false

open PluginHost.Table

/-- The call asks a library for a descriptor. -/
def Call.Describes : Call → Prop
  | .describe _ => True
  | .describeLegacy _ => True
  | _ => False

namespace Host

/-! ## Reading -/

/-- In between the journal grows, and all calls in it ask for descriptors. -/
def Tells (h h' : Host) : Prop :=
  ∃ events, h'.journal = events ++ h.journal ∧ ∀ o c, Event.call o c ∈ events → c.Describes

theorem Tells.refl (h : Host) : h.Tells h := ⟨[], rfl, by simp⟩

theorem Tells.trans {h h' h'' : Host} (first : h.Tells h') (second : h'.Tells h'') : h.Tells h'' := by
  obtain ⟨events, hjournal, hcalls⟩ := first
  obtain ⟨more, hjournal', hcalls'⟩ := second
  refine ⟨more ++ events, by rw [hjournal', hjournal, List.append_assoc], fun o c hc => ?_⟩
  rcases List.mem_append.1 hc with hc | hc
  · exact hcalls' o c hc
  · exact hcalls o c hc

theorem Tells.of_cons {h h' : Host} {e : Event} (hjournal : h'.journal = e :: h.journal)
    (he : ∀ o c, e = .call o c → c.Describes) : h.Tells h' :=
  ⟨[e], hjournal, fun o c hc => he o c (List.mem_singleton.1 hc).symm⟩

/-- In between the journal grows, and there is no call in it. -/
def Silent (h h' : Host) : Prop :=
  ∃ events, h'.journal = events ++ h.journal ∧ ∀ o c, Event.call o c ∉ events

theorem Silent.of_journal {h h' : Host} (hjournal : h'.journal = h.journal) : h.Silent h' :=
  ⟨[], hjournal, by simp⟩

theorem Silent.trans {h h' h'' : Host} (first : h.Silent h') (second : h'.Silent h'') : h.Silent h'' := by
  obtain ⟨events, hjournal, hcalls⟩ := first
  obtain ⟨more, hjournal', hcalls'⟩ := second
  refine ⟨more ++ events, by rw [hjournal', hjournal, List.append_assoc], fun o c hc => ?_⟩
  rcases List.mem_append.1 hc with hc | hc
  · exact hcalls' o c hc
  · exact hcalls o c hc

theorem Silent.tells {h h' : Host} (hs : h.Silent h') : h.Tells h' := by
  obtain ⟨events, hjournal, hcalls⟩ := hs
  exact ⟨events, hjournal, fun o c hc => absurd hc (hcalls o c)⟩

theorem Silent.not_mem_eventsSince {h h' : Host} (hs : h.Silent h') (o : Origin) (c : Call) :
    Event.call o c ∉ h'.eventsSince h := by
  obtain ⟨events, hjournal, hcalls⟩ := hs
  rw [eventsSince, hjournal]
  simpa using hcalls o c

theorem silent_note (h : Host) (n : Notice) : h.Silent (h.note n) := ⟨[.notice n], rfl, by simp⟩

/-- Nothing happens but that something is said or a descriptor is asked for. -/
structure Reads (h h' : Host) : Prop where
  files : h'.files = h.files
  mappings : h'.mappings = h.mappings
  records : h'.records = h.records
  instances : h'.instances = h.instances
  tells : h.Tells h'

namespace Reads

variable {h h' h'' : Host}

theorem refl (h : Host) : h.Reads h := ⟨rfl, rfl, rfl, rfl, .refl h⟩

theorem trans (first : h.Reads h') (second : h'.Reads h'') : h.Reads h'' where
  files := second.files.trans first.files
  mappings := second.mappings.trans first.mappings
  records := second.records.trans first.records
  instances := second.instances.trans first.instances
  tells := first.tells.trans second.tells

theorem foldl {α : Type} {f : Host → α → Host} (hf : ∀ h a, Reads h (f h a)) (h : Host)
    (as : List α) : h.Reads (as.foldl f h) := by
  induction as generalizing h with
  | nil => exact .refl h
  | cons a as ih => exact (hf h a).trans (ih (f h a))

end Reads

theorem reads_note (h : Host) (n : Notice) : h.Reads (h.note n) :=
  ⟨rfl, rfl, rfl, rfl, (silent_note h n).tells⟩

theorem reads_call (h : Host) (o : Origin) {c : Call} (hc : c.Describes) : h.Reads (h.call o c) := by
  refine ⟨rfl, rfl, rfl, rfl, .of_cons rfl fun _ _ he => ?_⟩
  cases he
  exact hc

/-! ## The image at a path -/

/-- The image that opening a path leads to. -/
def imageAt (h : Host) (p : Path) : Option Image := (h.locate p).map fun found => found.2.image

/-- The image that a file leads to: that of its mapping, or else its own. -/
def imageOf (h : Host) : Option File → Option Image
  | some ⟨file, .library image⟩ => some (((h.mappedFrom file).map fun e => e.2.image).getD image)
  | _ => none

theorem imageOf_congr {h h' : Host} (hmapped : ∀ file, (h'.mappedFrom file).map (fun e => e.2.image) =
    (h.mappedFrom file).map fun e => e.2.image) (f : Option File) : h'.imageOf f = h.imageOf f := by
  match f with
  | none => rfl
  | some ⟨_, .octets _⟩ => rfl
  | some ⟨file, .library image⟩ => simp only [imageOf, hmapped]

theorem imageAt_eq (h : Host) (p : Path) : h.imageAt p =
    if p.hasSlash then
      ((h.knownAs p.text).map fun e => e.2.image).or (h.imageOf (h.files.file? p))
    else none := by
  unfold imageAt locate
  split
  · cases h.knownAs p.text with
    | some found => rfl
    | none =>
      match h.files.file? p with
      | none => rfl
      | some ⟨_, .octets _⟩ => rfl
      | some ⟨file, .library image⟩ =>
        simp only [imageOf]
        cases h.mappedFrom file <;> rfl
  · rfl

theorem imageAt_congr {h h' : Host} (hfiles : h'.files = h.files) (hmappings : h'.mappings = h.mappings)
    (p : Path) : h'.imageAt p = h.imageAt p := by
  have hknown : h'.knownAs p.text = h.knownAs p.text := by rw [knownAs, hmappings]; rfl
  have hmapped : ∀ file, h'.mappedFrom file = h.mappedFrom file := by
    intro file
    rw [mappedFrom, hmappings]
    rfl
  have himage : ∀ f, h'.imageOf f = h.imageOf f := imageOf_congr fun file => by rw [hmapped]
  rw [imageAt_eq, imageAt_eq, hknown, hfiles, himage]

/-! ## What is restored -/

theorem counter_of_extends {t t' : Table Nat Mapping}
    (h : List.Forall₂ (fun e e' : Nat × Mapping => e.1 = e'.1 ∧ e.2.Extends e'.2) t t') (id : Nat) :
    t'.counter Mapping.holds id = t.counter Mapping.holds id := by
  unfold counter
  induction h with
  | nil => rfl
  | @cons e e' rest rest' hfirst _ ih =>
    obtain ⟨id₀, m⟩ := e
    obtain ⟨id₁, m'⟩ := e'
    obtain ⟨rfl, hextends⟩ : id₀ = id₁ ∧ m.Extends m' := hfirst
    by_cases hid : (id₀ == id) = true
    · simp [find?, hid, hextends.holds]
    · simpa [find?, hid] using ih

/-- The two hosts differ in their journals and in the strings of their mappings at most. -/
structure Restored (h h' : Host) : Prop where
  files : h'.files = h.files
  records : h'.records = h.records
  instances : h'.instances = h.instances
  mappings : List.Forall₂ (fun e e' : Nat × Mapping => e.1 = e'.1 ∧ e.2.Extends e'.2)
    h.mappings h'.mappings
  /-- Every path leads to the image that it led to. -/
  images : ∀ q, h'.imageAt q = h.imageAt q
  tells : h.Tells h'

namespace Restored

variable {h h' h'' : Host}

theorem refl (h : Host) : h.Restored h :=
  ⟨rfl, rfl, rfl, List.forall₂_same.2 fun e _ => ⟨rfl, .refl e.2⟩, fun _ => rfl, .refl h⟩

theorem of_reads (hread : h.Reads h') (hr : h'.Restored h'') : h.Restored h'' where
  files := hr.files.trans hread.files
  records := hr.records.trans hread.records
  instances := hr.instances.trans hread.instances
  mappings := by
    rw [← hread.mappings]
    exact hr.mappings
  images := fun q => (hr.images q).trans (imageAt_congr hread.files hread.mappings q)
  tells := hread.tells.trans hr.tells

theorem reads (hr : h.Restored h') (hread : h'.Reads h'') : h.Restored h'' where
  files := hread.files.trans hr.files
  records := hread.records.trans hr.records
  instances := hread.instances.trans hr.instances
  mappings := by
    rw [hread.mappings]
    exact hr.mappings
  images := fun q => (imageAt_congr hread.files hread.mappings q).trans (hr.images q)
  tells := hr.tells.trans hread.tells

theorem live (hr : h.Restored h') (l : Library) : h'.live l = h.live l := by
  simp only [Host.live, hr.records]

theorem uses (hr : h.Restored h') (x : Instance) : h'.uses x = h.uses x := by
  simp only [Host.uses, hr.instances]

theorem holds (hr : h.Restored h') (id : Nat) :
    h'.mappings.counter Mapping.holds id = h.mappings.counter Mapping.holds id :=
  counter_of_extends hr.mappings id

end Restored

/-! ## Closing -/

@[simp] theorem records_closeMapping (h : Host) (id : Nat) : (h.closeMapping id).records = h.records := by
  unfold closeMapping
  split <;> rfl

@[simp] theorem instances_closeMapping (h : Host) (id : Nat) :
    (h.closeMapping id).instances = h.instances := by
  unfold closeMapping
  split <;> rfl

theorem mappings_closeMapping_congr {h h' : Host} (hm : h'.mappings = h.mappings) (id : Nat) :
    (h'.closeMapping id).mappings = (h.closeMapping id).mappings := by
  simp only [closeMapping, hm]
  split
  · exact hm
  · rfl

theorem silent_closeMapping (h : Host) (id : Nat) : h.Silent (h.closeMapping id) := by
  unfold closeMapping
  split
  · exact .of_journal rfl
  · exact ⟨[.returned id], rfl, by simp⟩

variable {h opened : Host} {referred : Multiset Library} {held : Multiset Instance}

/-- Closing takes back the hold that opening took: what was mapped for the opening is gone, and what was in
memory is there with its holds. -/
theorem mappings_closeMapping_hold (hb : h.Balanced 0 referred held) {p : Path} {id : Nat} {m : Mapping}
    (hp : h.locate p = some (id, m)) :
    ((h.hold id m).closeMapping id).mappings = h.mappings ∨
      ∃ m₀, h.mappings.find? id = some m₀ ∧ m₀.Extends m ∧
        ((h.hold id m).closeMapping id).mappings = h.mappings.put id m := by
  have hfound : (h.hold id m).mappings.find? id = some { m with holds := m.holds + 1 } :=
    find?_put_self _ _ _
  have hclosed : ((h.hold id m).closeMapping id).mappings =
      if m.holds + 1 ≤ 1 then (h.mappings.put id { m with holds := m.holds + 1 }).erase id
      else (h.mappings.put id { m with holds := m.holds + 1 }).put id m := by
    simp only [closeMapping, hfound]
    rfl
  rw [hclosed]
  rcases hb.mapping_of_locate hp with ⟨m₀, hm₀, hextends⟩ | ⟨rfl, hnone⟩
  · have hpos : 0 < m₀.holds := hb.mappings.positive id m₀ hm₀
    have hmany : ¬ m.holds + 1 ≤ 1 := by
      have heq := hextends.holds
      omega
    rw [if_neg hmany, put_put]
    exact .inr ⟨m₀, hm₀, hextends, rfl⟩
  · have hlast : m.holds + 1 ≤ 1 := by omega
    rw [if_pos hlast, erase_put, erase_of_find?_eq_none hb.fresh.1.self]
    exact .inl rfl

/-- Under a string that was not known before, only the mapping that was put can be known. -/
theorem eq_of_knownAs_put {h h' : Host} {text : String} {id : Nat} {m : Mapping} {found : Nat × Mapping}
    (hunknown : h.knownAs text = none) (hmappings : h'.mappings = h.mappings.put id m)
    (hknown : h'.knownAs text = some found) : found.2 = m := by
  have hmem : found ∈ h.mappings.put id m := by
    rw [← hmappings]
    exact List.mem_of_find?_eq_some hknown
  rcases eq_or_mem_of_mem_put hmem with ⟨-, hvalue⟩ | hold
  · exact hvalue
  · have hno := List.find?_eq_none.1 hunknown found hold
    exact absurd (List.find?_some hknown) hno

/-- A string that is new for a mapping leads to the image that the path led to before. -/
theorem imageAt_of_put (hb : h.Balanced 0 referred held) {p : Path} {id : Nat} {m m₀ : Mapping}
    (hp : h.locate p = some (id, m)) (hm₀ : h.mappings.find? id = some m₀) {h' : Host}
    (hfiles : h'.files = h.files) (hmappings : h'.mappings = h.mappings.put id m) (q : Path) :
    h'.imageAt q = h.imageAt q := by
  have hfind : ∀ {found : Nat × Mapping}, found ∈ h.mappings → h.mappings.find? found.1 = some found.2 :=
    fun hmem => find?_of_mem hb.mappings.distinct hmem
  rcases locate_cases hp with hknown | ⟨hunknown, file, image, hfile, ⟨m₁, hmapped, rfl⟩ | ⟨-, rfl, -⟩⟩
  · have hsame : h.mappings.find? id = some m := hfind (List.mem_of_find?_eq_some hknown)
    rw [put_of_find? hsame] at hmappings
    exact imageAt_congr hfiles hmappings q
  · obtain rfl : m₀ = m₁ := by
      have hsame : h.mappings.find? id = some m₁ := hfind (List.mem_of_find?_eq_some hmapped)
      exact Option.some.inj (hm₀.symm.trans hsame)
    have hsearch : ∀ P : Mapping → Bool, P { m₀ with names := m₀.names ++ [p.text] } = P m₀ →
        (List.find? (fun e => P e.2) h'.mappings).map (fun e => e.2.image) =
          (List.find? (fun e => P e.2) h.mappings).map fun e => e.2.image := by
      intro P hP
      rw [hmappings]
      exact map_find?_put (f := Mapping.image) hm₀ hP rfl
    have himages := imageOf_congr fun file => hsearch (fun m => m.file == file) rfl
    rw [imageAt_eq, imageAt_eq, hfiles, himages]
    by_cases hq : q.text = p.text
    · obtain rfl : q = p := congrArg Path.mk hq
      have hown : h.imageOf (h.files.file? q) = some m₀.image := by simp [hfile, imageOf, hmapped]
      simp only [hunknown, hown]
      cases hknown : h'.knownAs q.text with
      | none => rfl
      | some found =>
        rw [Option.map_some, eq_of_knownAs_put hunknown hmappings hknown]
        rfl
    · have hknown := hsearch (fun m => m.names.contains q.text) (by simp [hq])
      unfold knownAs
      rw [hknown]
  · rw [hb.fresh.1.self] at hm₀
    cases hm₀

/-- A library that is opened, read and closed again leaves the host as it was. -/
theorem restored_of_reads (hb : h.Balanced 0 referred held) {p : Path} {id : Nat} {m : Mapping}
    (hp : h.locate p = some (id, m)) (hr : (h.hold id m).Reads opened) :
    h.Restored (opened.closeMapping id) := by
  have hheld : h.Tells (h.hold id m) := .of_cons rfl fun _ _ he => by cases he
  have hfiles : (opened.closeMapping id).files = h.files := by
    rw [files_closeMapping, hr.files]
    rfl
  have hmappings := mappings_closeMapping_hold hb hp
  rw [← mappings_closeMapping_congr hr.mappings] at hmappings
  constructor
  case files => exact hfiles
  case records =>
    rw [records_closeMapping, hr.records]
    rfl
  case instances =>
    rw [instances_closeMapping, hr.instances]
    rfl
  case mappings =>
    rcases hmappings with heq | ⟨m₀, hm₀, hextends, heq⟩
    · rw [heq]
      exact List.forall₂_same.2 fun e _ => ⟨rfl, .refl e.2⟩
    · rw [heq]
      exact forall₂_put Mapping.Extends.refl hm₀ hextends
  case images =>
    intro q
    rcases hmappings with heq | ⟨m₀, hm₀, hextends, heq⟩
    · exact imageAt_congr hfiles heq q
    · exact imageAt_of_put hb hp hm₀ hfiles heq q
  case tells => exact (hheld.trans hr.tells).trans (opened.silent_closeMapping id).tells

end Host

end PluginHost
