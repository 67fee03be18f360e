import PluginHost.Proofs.Config.Variable

/-!
# Settings from variables

Each setting is what its own variable says, or stays as it was when that variable is not set or is no text.
Variables are refused for a policy that is none, and then for an answer that is none; no other variable and no
setting from before has a part in that.

* `Config.Overridden`: the settings that the variables give.
* `Environment.Refused`: what variables are refused for.
* `Config.governed`: this is what the variables do to all settings.
-/

namespace PluginHost

set_option autoImplicit false

/-! ## One variable -/

namespace Environment

/-- What a variable is set to. -/
def setting? (env : Environment) (name : String) : Option Setting :=
  (env.settings.find? fun e => e.1 == name).map Prod.snd

theorem text?_eq (env : Environment) (name : String) : env.text? name =
    match env.setting? name with
    | some (.text s) => some s
    | _ => none := by
  rw [text?, setting?]
  cases env.settings.find? fun e => e.1 == name with
  | none => rfl
  | some e =>
    obtain ⟨_, setting⟩ := e
    cases setting <;> rfl

/-- The value that a variable gives, and the one before when it gives none. -/
def read {α : Type} (env : Environment) (name : String) (parse : String → Except ConfigError α)
    (before : α) : Except ConfigError α :=
  match env.text? name with
  | some s => parse s
  | none => .ok before

end Environment

/-- The value is what the text of the variable says; it stays when there is no text. -/
def Chosen {α : Type} (setting? : Option Setting) (Says : String → α → Prop) (before value : α) : Prop :=
  match setting? with
  | none => value = before
  | some (.undecodable _) => value = before
  | some (.text s) => Says s value

/-- The variable is set to a text that says nothing. -/
def Misstated {α : Type} (setting? : Option Setting) (Says : String → α → Prop) (s : String) : Prop :=
  setting? = some (.text s) ∧ ∀ v, ¬ Says s v

section Variable

theorem bind_eq_ok_iff {ε α β : Type} {x : Except ε α} {f : α → Except ε β} {b : β} :
    x.bind f = .ok b ↔ ∃ a, x = .ok a ∧ f a = .ok b := by
  cases x <;> simp [Except.bind]

theorem bind_eq_error_iff {ε α β : Type} {x : Except ε α} {f : α → Except ε β} {e : ε} :
    x.bind f = .error e ↔ x = .error e ∨ ∃ a, x = .ok a ∧ f a = .error e := by
  cases x <;> simp [Except.bind]

variable {α : Type} {env : Environment} {parse : String → Except ConfigError α} {name : String}
  {Says : String → α → Prop} {before v : α}

theorem Reads.read_ok_iff (h : Reads parse name Says) :
    env.read name parse before = .ok v ↔ Chosen (env.setting? name) Says before v := by
  have hkept : (Except.ok before : Except ConfigError α) = .ok v ↔ v = before := by
    rw [Except.ok.injEq]
    exact eq_comm
  rw [Environment.read, Environment.text?_eq]
  cases env.setting? name with
  | none => exact hkept
  | some setting =>
    cases setting with
    | undecodable bytes => exact hkept
    | text s => exact h.ok_iff

theorem Reads.read_error_iff (h : Reads parse name Says) {e : ConfigError} :
    env.read name parse before = .error e ↔
      ∃ s, Misstated (env.setting? name) Says s ∧ e = .invalidValue name s := by
  rw [Environment.read, Environment.text?_eq]
  cases hset : env.setting? name with
  | none => simp [Misstated]
  | some setting =>
    cases setting with
    | undecodable bytes => simp [Misstated]
    | text s =>
      simp only [h.error_iff, Misstated, Option.some.injEq, Setting.text.injEq]
      constructor
      · rintro ⟨hnone, rfl⟩
        exact ⟨s, ⟨rfl, hnone⟩, rfl⟩
      · rintro ⟨_, ⟨rfl, hnone⟩, rfl⟩
        exact ⟨hnone, rfl⟩

/-- A value is given exactly when the variable is not set to a text that says nothing. -/
theorem Reads.exists_read_iff (h : Reads parse name Says) (env : Environment) (before : α) :
    (∃ v, env.read name parse before = .ok v) ↔ ∀ s, ¬ Misstated (env.setting? name) Says s := by
  constructor
  · rintro ⟨v, hv⟩ s hs
    rw [h.read_error_iff.2 ⟨s, hs, rfl⟩] at hv
    cases hv
  · intro hno
    cases hread : env.read name parse before with
    | ok v => exact ⟨v, rfl⟩
    | error e =>
      obtain ⟨s, hs, -⟩ := h.read_error_iff.1 hread
      exact absurd hs (hno s)

theorem Chosen.unique {setting? : Option Setting} {v' : α} (h : Chosen setting? Says before v)
    (hreads : Reads parse name Says) (h' : Chosen setting? Says before v') : v = v' := by
  cases setting? with
  | none => exact Eq.trans h (Eq.symm h')
  | some setting =>
    cases setting with
    | undecodable bytes => exact Eq.trans h (Eq.symm h')
    | text s => exact hreads.unique h h'

/-- A value that was chosen is chosen again. -/
theorem Chosen.again {setting? : Option Setting} (h : Chosen setting? Says before v) :
    Chosen setting? Says v v := by
  cases setting? with
  | none => exact rfl
  | some setting =>
    cases setting with
    | undecodable bytes => exact rfl
    | text s => exact h

end Variable

/-! ## The three variables -/

/-- The policy is refused first. -/
inductive Environment.Refused (env : Environment) : ConfigError → Prop
  | policy {s : String} :
      Misstated (env.setting? Variable.duplicatePolicy) DuplicatePolicy.Says s →
      Refused env (.invalidValue Variable.duplicatePolicy s)
  | answer {s : String} :
      (∀ s', ¬ Misstated (env.setting? Variable.duplicatePolicy) DuplicatePolicy.Says s') →
      Misstated (env.setting? Variable.warnOutdatedAbi) Answers s →
      Refused env (.invalidValue Variable.warnOutdatedAbi s)

namespace Config

/-- `r` is `c` with the variables on top. -/
structure Overridden (env : Environment) (c r : Config) : Prop where
  duplicatePolicy : Chosen (env.setting? Variable.duplicatePolicy) DuplicatePolicy.Says c.duplicatePolicy
    r.duplicatePolicy
  preload : Chosen (env.setting? Variable.preload) Path.Listed c.preload r.preload
  warnOutdatedAbi : Chosen (env.setting? Variable.warnOutdatedAbi) Answers c.warnOutdatedAbi
    r.warnOutdatedAbi

/-- What becomes of the field follows from the variable and from what it was before. -/
def DependsOnly {α : Type} (c : Config) (env : Environment) (name : String) (field : Config → α) : Prop :=
  ∀ (c' : Config) (env' : Environment) (r r' : Config), c.withOverrides env = .ok r →
    c'.withOverrides env' = .ok r' → env'.setting? name = env.setting? name → field c' = field c →
    field r' = field r

/-- What the variables of an environment do to settings. -/
structure Governed (env : Environment) (c : Config) : Prop where
  refused : ∀ e, c.withOverrides env = .error e ↔ env.Refused e
  applied : ∀ r, c.withOverrides env = .ok r ↔ Overridden env c r
  policyAlone : c.DependsOnly env Variable.duplicatePolicy Config.duplicatePolicy
  preloadAlone : c.DependsOnly env Variable.preload Config.preload
  warnAlone : c.DependsOnly env Variable.warnOutdatedAbi Config.warnOutdatedAbi
  /-- Paths that were joined come back, with any colons too many. -/
  joined : ∀ lead (paths : List (Path × Nat)), (∀ e ∈ paths, e.1.text ≠ "" ∧ ':' ∉ e.1.text.toList) →
    env.setting? Variable.preload = some (.text (joinPaths lead paths)) →
    ∀ r, c.withOverrides env = .ok r → r.preload = paths.map Prod.fst
  again : ((c.withOverrides env).bind fun r => r.withOverrides env) = c.withOverrides env

variable {env : Environment} {c r : Config}

theorem withOverrides_eq (c : Config) (env : Environment) : c.withOverrides env =
    (env.read Variable.duplicatePolicy DuplicatePolicy.parse c.duplicatePolicy).bind fun policy =>
      (env.read Variable.preload (fun s => .ok (splitPaths s)) c.preload).bind fun preload =>
        (env.read Variable.warnOutdatedAbi (parseFlag Variable.warnOutdatedAbi) c.warnOutdatedAbi).bind
          fun warn => .ok ⟨policy, preload, warn⟩ := by
  have hpreload : env.read Variable.preload (fun s => .ok (splitPaths s)) c.preload = .ok
      (match env.text? Variable.preload with
        | some s => splitPaths s
        | none => c.preload) := by
    rw [Environment.read]
    split <;> rfl
  rw [hpreload, withOverrides, Environment.read, Environment.read]
  cases env.text? Variable.duplicatePolicy <;> cases env.text? Variable.warnOutdatedAbi <;> rfl

theorem withOverrides_eq_ok_iff : c.withOverrides env = .ok r ↔ Overridden env c r := by
  simp only [withOverrides_eq, bind_eq_ok_iff, DuplicatePolicy.reads.read_ok_iff,
    (reads_splitPaths _).read_ok_iff, (reads_parseFlag _).read_ok_iff, Except.ok.injEq]
  constructor
  · rintro ⟨policy, hpolicy, preload, hpreload, warn, hwarn, rfl⟩
    exact ⟨hpolicy, hpreload, hwarn⟩
  · rintro ⟨hpolicy, hpreload, hwarn⟩
    exact ⟨_, hpolicy, _, hpreload, _, hwarn, rfl⟩

/-- Every text lists paths. -/
theorem not_misstated_preload (setting? : Option Setting) (s : String) :
    ¬ Misstated setting? Path.Listed s := fun h =>
  h.2 (splitPaths s) (splitPaths_eq_iff.1 rfl)

theorem withOverrides_eq_error_iff {e : ConfigError} : c.withOverrides env = .error e ↔ env.Refused e := by
  have hanswers := reads_parseFlag Variable.warnOutdatedAbi
  rw [withOverrides_eq, bind_eq_error_iff]
  constructor
  · rintro (hpolicy | ⟨policy, hpolicy, h⟩)
    · obtain ⟨s, hs, rfl⟩ := DuplicatePolicy.reads.read_error_iff.1 hpolicy
      exact .policy hs
    rcases bind_eq_error_iff.1 h with hpreload | ⟨preload, -, h⟩
    · obtain ⟨s, hs, -⟩ := (reads_splitPaths _).read_error_iff.1 hpreload
      exact absurd hs (not_misstated_preload _ s)
    rcases bind_eq_error_iff.1 h with hwarn | ⟨warn, -, h⟩
    · obtain ⟨s, hs, rfl⟩ := hanswers.read_error_iff.1 hwarn
      exact .answer ((DuplicatePolicy.reads.exists_read_iff env _).1 ⟨policy, hpolicy⟩) hs
    · cases h
  · intro h
    cases h with
    | policy hs => exact .inl (DuplicatePolicy.reads.read_error_iff.2 ⟨_, hs, rfl⟩)
    | answer hno hs =>
      obtain ⟨policy, hpolicy⟩ := (DuplicatePolicy.reads.exists_read_iff env c.duplicatePolicy).2 hno
      obtain ⟨preload, hpreload⟩ := ((reads_splitPaths Variable.preload).exists_read_iff env c.preload).2
        (not_misstated_preload (env.setting? Variable.preload))
      refine .inr ⟨policy, hpolicy, bind_eq_error_iff.2 (.inr ⟨preload, hpreload, ?_⟩)⟩
      exact bind_eq_error_iff.2 (.inl (hanswers.read_error_iff.2 ⟨_, hs, rfl⟩))

/-! ## All settings -/

/-- A setting that its variable gives follows from that variable. -/
theorem dependsOnly_of_chosen {α : Type} {name : String} {field : Config → α} {Says : String → α → Prop}
    {parse : String → Except ConfigError α} (hreads : Reads parse name Says)
    (hfield : ∀ {c env r}, Overridden env c r → Chosen (env.setting? name) Says (field c) (field r)) :
    c.DependsOnly env name field := by
  intro c' env' r r' hr hr' hset hbefore
  have hchosen := hfield (withOverrides_eq_ok_iff.1 hr)
  have hchosen' := hfield (withOverrides_eq_ok_iff.1 hr')
  rw [hset, hbefore] at hchosen'
  exact hchosen'.unique hreads hchosen

theorem Overridden.again (h : Overridden env c r) : Overridden env r r :=
  ⟨h.duplicatePolicy.again, h.preload.again, h.warnOutdatedAbi.again⟩

/-- The variables of every environment do this to all settings: what they cannot say is refused, and otherwise
each of them decides about its own setting. -/
theorem governed (env : Environment) (c : Config) : Governed env c where
  refused _ := withOverrides_eq_error_iff
  applied _ := withOverrides_eq_ok_iff
  policyAlone := dependsOnly_of_chosen DuplicatePolicy.reads Overridden.duplicatePolicy
  preloadAlone := dependsOnly_of_chosen (reads_splitPaths Variable.preload) Overridden.preload
  warnAlone := dependsOnly_of_chosen (reads_parseFlag Variable.warnOutdatedAbi) Overridden.warnOutdatedAbi
  joined lead paths hpaths hset r hr := by
    have hchosen := (withOverrides_eq_ok_iff.1 hr).preload
    rw [hset] at hchosen
    exact (splitPaths_eq_iff.2 hchosen).symm.trans (splitPaths_joinPaths lead hpaths)
  again := by
    cases h : c.withOverrides env with
    | error e => rfl
    | ok r => exact withOverrides_eq_ok_iff.2 (withOverrides_eq_ok_iff.1 h).again

/-- A policy between blanks and partly in capitals, two paths with colons too many, and an answer that is no
text. -/
def crammed : Environment :=
  ⟨[(Variable.duplicatePolicy, .text "\tReJect\u3000"),
    (Variable.preload, .text (joinPaths 1 [(⟨"/w/a.so"⟩, 2), (⟨"b.so"⟩, 0)])),
    (Variable.warnOutdatedAbi, .undecodable [0xFF])]⟩

theorem governed_of_crammed :
    crammed.setting? Variable.preload = some (.text ":/w/a.so:::b.so") ∧
    ∃ r, standard.withOverrides crammed = .ok r ∧ r.duplicatePolicy = .reject ∧
      r.preload = [⟨"/w/a.so"⟩, ⟨"b.so"⟩] ∧ r.warnOutdatedAbi = true ∧ r.withOverrides crammed = .ok r := by
  have hread : ∃ r, standard.withOverrides crammed = .ok r ∧ r.duplicatePolicy = .reject ∧
      r.warnOutdatedAbi = true := ⟨⟨.reject, _, true⟩, rfl, rfl, rfl⟩
  obtain ⟨r, hr, hpolicy, hwarn⟩ := hread
  have hgoverned := governed crammed standard
  have hpaths := hgoverned.joined 1 [(⟨"/w/a.so"⟩, 2), (⟨"b.so"⟩, 0)] (by decide) rfl r hr
  have hagain := hgoverned.again
  rw [hr] at hagain
  exact ⟨by decide, r, hr, hpolicy, hpaths, hwarn, hagain⟩

-- the policy is refused first, with its text as it was given
example : standard.withOverrides ⟨[(Variable.warnOutdatedAbi, .text "maybe"),
    (Variable.duplicatePolicy, .text " merge ")]⟩ =
      .error (.invalidValue Variable.duplicatePolicy " merge ") := rfl

end Config

end PluginHost
