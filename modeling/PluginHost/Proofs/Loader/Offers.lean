import PluginHost.Proofs.Loader.Outline

/-!
# Offers to a loader

For an outline a load is an offer: some plugins under a key, or none when the load fails. Names that are known
stay known, and when duplicates are rejected they stay with their key. So whoever is offered the same once more
lets in the same once more, however the names went from one key to the other in between, and putting the same
entries again changes nothing.

* `Offer`, `Outline.received`: what is offered and what comes of it.
* `Outline.Precedes`: one outline came before another.
* `Outline.choices`, `Outline.passed`: offers one after the other.
* `Outline.choices_of_precedes`: what is let in of offers is let in again.
* `Outline.passed_passed`: the same offers once more.
-/

namespace PluginHost

set_option autoImplicit false

open PluginHost.Table

structure Offer where
  key : Path
  infos : List PluginInfo

namespace Outline

variable {O P Q : Outline} {o : Offer} {n : String}

/-! ## One offer -/

/-- The plugins of an offer that are let in, with canonical names. -/
def admitted (O : Outline) (o : Offer) : List PluginInfo :=
  (o.infos.map PluginInfo.normalized).filter fun info => O.Admits o.key info.name

def named (O : Outline) (o : Offer) : List String := Ordered.ofList ((O.admitted o).map PluginInfo.name)

/-- The outline after an offer; when nothing is let in it stays as it is. -/
def received (O : Outline) (o : Offer) : Outline :=
  if (O.admitted o).isEmpty then O else O.registered o.key (O.named o) (O.admitted o)

theorem mem_named : n ∈ O.named o ↔ ∃ info ∈ O.admitted o, info.name = n := by simp [named]

theorem admits_of_mem {info : PluginInfo} (h : info ∈ O.admitted o) : O.Admits o.key info.name :=
  of_decide_eq_true (List.mem_filter.1 h).2

/-- After an offer a name is found with the last plugin that was let in under it, or else as before. -/
theorem find?_received (O : Outline) (o : Offer) (n : String) : (O.received o).index.find? n =
    ((Loader.lastNamed n (O.admitted o)).map fun info => (info, o.key)).or (O.index.find? n) := by
  unfold received
  split
  · next hnone =>
    rw [List.isEmpty_iff.1 hnone]
    rfl
  · exact Loader.find?_putEach_named O.index (fun info => (info, o.key)) (O.admitted o) n

theorem exists_find?_of_named (hn : n ∈ O.named o) :
    ∃ info, (O.received o).index.find? n = some (info, o.key) := by
  obtain ⟨info, hinfo, hname⟩ := mem_named.1 hn
  rw [find?_received]
  cases hlast : Loader.lastNamed n (O.admitted o) with
  | some last => exact ⟨last, rfl⟩
  | none =>
    have hno := List.find?_eq_none.1 hlast info (List.mem_reverse.2 hinfo)
    exact absurd hname (by simpa using hno)

theorem policy_received (O : Outline) (o : Offer) : (O.received o).policy = O.policy := by
  unfold received
  split <;> rfl

/-! ## What comes after -/

/-- The names that are known in the first outline are known in the second, and if duplicates are rejected they
belong to the same keys. -/
structure Precedes (O P : Outline) : Prop where
  policy : P.policy = O.policy
  known : ∀ n e, O.index.find? n = some e →
    ∃ e', P.index.find? n = some e' ∧ (O.policy = .reject → (e'.2 == e.2) = true)

theorem Precedes.refl (O : Outline) : O.Precedes O := ⟨rfl, fun _ e he => ⟨e, he, fun _ => BEq.rfl⟩⟩

theorem Precedes.trans (first : O.Precedes P) (second : P.Precedes Q) : O.Precedes Q where
  policy := second.policy.trans first.policy
  known := by
    intro n e he
    obtain ⟨e', he', hsame⟩ := first.known n e he
    obtain ⟨e'', he'', hsame'⟩ := second.known n e' he'
    exact ⟨e'', he'', fun hpolicy => BEq.trans (hsame' (first.policy.trans hpolicy)) (hsame hpolicy)⟩

theorem precedes_received (O : Outline) (o : Offer) : O.Precedes (O.received o) where
  policy := O.policy_received o
  known := by
    intro n e he
    rw [find?_received]
    cases hlast : Loader.lastNamed n (O.admitted o) with
    | none => exact ⟨e, by simpa using he, fun _ => BEq.rfl⟩
    | some info =>
      refine ⟨(info, o.key), rfl, fun hpolicy => ?_⟩
      obtain ⟨hmem, rfl⟩ := Loader.of_lastNamed hlast
      rcases admits_of_mem hmem with hfree | ⟨e₀, he₀, hkey⟩ | hoverwrite
      · rw [he] at hfree
        cases hfree
      · rw [he] at he₀
        obtain rfl := Option.some.inj he₀
        exact BEq.symm hkey
      · rw [hpolicy] at hoverwrite
        cases hoverwrite

/-- Whoever comes after an offer lets in of it what was let in. -/
theorem admitted_of_precedes (h : (O.received o).Precedes P) : P.admitted o = O.admitted o := by
  refine List.filter_congr fun info hinfo => ?_
  rw [decide_eq_decide]
  have hpolicy : P.policy = O.policy := h.policy.trans (O.policy_received o)
  cases hO : O.policy with
  | overwrite => exact iff_of_true (.inr (.inr (hpolicy.trans hO))) (.inr (.inr hO))
  | reject =>
    by_cases hadmits : O.Admits o.key info.name
    · refine iff_of_true ?_ hadmits
      have hnamed : info.name ∈ O.named o :=
        mem_named.2 ⟨info, List.mem_filter.2 ⟨hinfo, decide_eq_true hadmits⟩, rfl⟩
      obtain ⟨last, hlast⟩ := exists_find?_of_named hnamed
      obtain ⟨e, he, hkey⟩ := h.known _ _ hlast
      exact .inr (.inl ⟨e, he, hkey ((O.policy_received o).trans hO)⟩)
    · refine iff_of_false ?_ hadmits
      -- the name belongs to another key, and it still does
      cases he : O.index.find? info.name with
      | none => exact absurd (.inl he) hadmits
      | some e =>
        obtain ⟨e', he', hkey⟩ := ((O.precedes_received o).trans h).known _ _ he
        rintro (hfree | ⟨e₀, he₀, hown⟩ | hoverwrite)
        · rw [he'] at hfree
          cases hfree
        · rw [he'] at he₀
          obtain rfl := Option.some.inj he₀
          exact hadmits (.inr (.inl ⟨e, he, BEq.trans (BEq.symm (hkey hO)) hown⟩))
        · rw [hpolicy, hO] at hoverwrite
          cases hoverwrite

/-! ## Offers one after the other -/

def passed (O : Outline) (offers : List Offer) : Outline := offers.foldl received O

/-- What is let in of every offer, with its key. -/
def choices (O : Outline) : List Offer → List (Path × List PluginInfo)
  | [] => []
  | o :: rest => (o.key, O.admitted o) :: (O.received o).choices rest

def answers (O : Outline) (offers : List Offer) : List (List String) :=
  (O.choices offers).map fun choice => Ordered.ofList (choice.2.map PluginInfo.name)

theorem answers_cons (O : Outline) (o : Offer) (rest : List Offer) :
    O.answers (o :: rest) = O.named o :: (O.received o).answers rest := rfl

theorem precedes_passed (O : Outline) (offers : List Offer) : O.Precedes (O.passed offers) := by
  induction offers generalizing O with
  | nil => exact .refl O
  | cons o rest ih => exact (O.precedes_received o).trans (ih _)

theorem choices_of_precedes {offers : List Offer} (h : (O.passed offers).Precedes P) :
    P.choices offers = O.choices offers := by
  induction offers generalizing O P with
  | nil => rfl
  | cons o rest ih =>
    have hadmitted : P.admitted o = O.admitted o :=
      admitted_of_precedes ((precedes_passed (O.received o) rest).trans h)
    have hrest : (P.received o).choices rest = (O.received o).choices rest :=
      ih (Precedes.trans h (P.precedes_received o))
    rw [choices, choices, hadmitted, hrest]

/-- The entries that the index gets for a choice. -/
def entriesOf (choice : Path × List PluginInfo) : List (String × (PluginInfo × Path)) :=
  choice.2.map fun info => (info.name, (info, choice.1))

/-- The entry that the table gets for a choice; there is none when nothing was let in. -/
def rowsOf (choice : Path × List PluginInfo) : List (Path × (Path × List String)) :=
  if choice.2.isEmpty then []
  else [(choice.1, (choice.1, Ordered.ofList (choice.2.map PluginInfo.name)))]

theorem received_eq (O : Outline) (o : Offer) : O.received o =
    { O with
      index := O.index.putEach (entriesOf (o.key, O.admitted o))
      libraries := O.libraries.putEach (rowsOf (o.key, O.admitted o)) } := by
  unfold received entriesOf rowsOf named
  cases O.admitted o <;> rfl

/-- After the offers the entries of all choices have been put into the index and the table. -/
theorem passed_eq (O : Outline) (offers : List Offer) : O.passed offers =
    { O with
      index := O.index.putEach ((O.choices offers).flatMap entriesOf)
      libraries := O.libraries.putEach ((O.choices offers).flatMap rowsOf) } := by
  induction offers generalizing O with
  | nil => rfl
  | cons o rest ih =>
    have hrest : O.passed (o :: rest) = (O.received o).passed rest := rfl
    rw [hrest, ih, choices, List.flatMap_cons, List.flatMap_cons, putEach_append, putEach_append, received_eq]

/-- The same offers once more: the same is let in, and the outline stays as it is. -/
theorem passed_passed (hindex : O.index.Distinct) (hlibraries : O.libraries.Distinct) (offers : List Offer) :
    (O.passed offers).answers offers = O.answers offers ∧
      (O.passed offers).passed offers = O.passed offers := by
  have hchoices : (O.passed offers).choices offers = O.choices offers := choices_of_precedes (.refl _)
  constructor
  · rw [answers, answers, hchoices]
  · rw [(O.passed offers).passed_eq, hchoices, O.passed_eq]
    simp only [putEach_putEach hindex, putEach_putEach hlibraries]

end Outline

end PluginHost
