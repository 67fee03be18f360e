import PluginHost.Proofs.Host.Parting
import PluginHost.Proofs.Image.Calls
import PluginHost.Proofs.Loader.Agreement
import PluginHost.Proofs.Loader.Registration

/-!
# The calls of a load

A load calls no code but the function that gives out descriptors, and that one only when the library at the
path declares what the function is made for. Opening, judging, registering and closing call nothing.

* `Host.Calls`: the calls between two states of a host.
* `Host.Guarded`: what may be called when one library is loaded.
* `Loader.guarded_tryLoad`, `Loader.guarded_loadAll`: this holds for every load.
-/

namespace PluginHost

set_option autoImplicit false

def Event.call? : Event → Option (Origin × Call)
  | .call o c => some (o, c)
  | _ => none

namespace Host

/-! ## Calls in between -/

def callsSince (h earlier : Host) : List (Origin × Call) := (h.eventsSince earlier).filterMap Event.call?

/-- In between the journal grows, and these are the calls in it, in order. -/
def Calls (h h' : Host) (calls : List (Origin × Call)) : Prop :=
  ∃ events, h'.journal = events ++ h.journal ∧ events.reverse.filterMap Event.call? = calls

variable {h h' h'' : Host} {made more : List (Origin × Call)}

theorem Calls.refl (h : Host) : h.Calls h [] := ⟨[], rfl, rfl⟩

theorem Calls.trans (first : h.Calls h' made) (second : h'.Calls h'' more) : h.Calls h'' (made ++ more) := by
  obtain ⟨events, hjournal, rfl⟩ := first
  obtain ⟨later, hjournal', rfl⟩ := second
  refine ⟨later ++ events, by rw [hjournal', hjournal, List.append_assoc], ?_⟩
  rw [List.reverse_append, List.filterMap_append]

theorem Silent.calls (hs : h.Silent h') : h.Calls h' [] := by
  obtain ⟨events, hjournal, hcalls⟩ := hs
  refine ⟨events, hjournal, List.filterMap_eq_nil_iff.2 fun e he => ?_⟩
  cases e with
  | call o c => exact absurd (List.mem_reverse.1 he) (hcalls o c)
  | notice | held | returned => rfl

theorem Calls.then_silent (first : h.Calls h' made) (second : h'.Silent h'') : h.Calls h'' made := by
  have hboth := first.trans second.calls
  rwa [List.append_nil] at hboth

theorem Calls.callsSince_eq (hc : h.Calls h' made) : h'.callsSince h = made := by
  obtain ⟨events, hjournal, rfl⟩ := hc
  rw [callsSince, eventsSince, hjournal]
  simp

theorem calls_call (h : Host) (o : Origin) (c : Call) : h.Calls (h.call o c) [(o, c)] :=
  ⟨[.call o c], rfl, rfl⟩

/-! ## Steps without a call -/

theorem Silent.foldl {α : Type} {f : Host → α → Host} (hf : ∀ h a, Silent h (f h a)) (h : Host) (as : List α) :
    h.Silent (as.foldl f h) := by
  induction as generalizing h with
  | nil => exact .of_journal rfl
  | cons a as ih => exact (hf h a).trans (ih (f h a))

theorem silent_hold (h : Host) (id : Nat) (m : Mapping) : h.Silent (h.hold id m) := ⟨[.held id], rfl, by simp⟩

theorem silent_retainLibrary (h : Host) (l : Library) : h.Silent (h.retainLibrary l) := by
  unfold retainLibrary
  split <;> exact .of_journal rfl

end Host

namespace Loader

theorem silent_enter (library : Library) (L : Loader) (h : Host) (info : PluginInfo) :
    h.Silent (enter library L h info).2 := by
  have hretained := h.silent_retainLibrary library
  unfold enter
  cases L.index.find? info.name with
  | none => exact hretained
  | some known => exact hretained.trans (Host.silent_releaseLibrary _ _)

theorem silent_enterAll (library : Library) (L : Loader) (h : Host) (infos : List PluginInfo) :
    h.Silent (enterAll library L h infos).2 := by
  induction infos generalizing L h with
  | nil => exact .of_journal rfl
  | cons info infos ih => exact (silent_enter library L h info).trans (ih _ _)

theorem silent_enlist (library : Library) (L : Loader) (h : Host) : h.Silent (enlist library L h).2 := by
  simp only [enlist]
  cases L.libraries.find? library.path with
  | none => exact .of_journal rfl
  | some old => exact h.silent_releaseLibrary old

/-- Registering calls nothing, whatever it takes from other libraries. -/
theorem silent_register (L : Loader) (h : Host) (key : Path) (o : Origin) (infos : List PluginInfo) :
    h.Silent (L.register h key o infos).2.2 := by
  have hjudged : h.Silent ((L.verdicts key infos).foldl Host.note h) := .foldl Host.silent_note h _
  simp only [register]
  split
  · exact hjudged.trans (Host.silent_closeMapping _ _)
  · refine hjudged.trans (.trans ?_ ((silent_enterAll _ L _ _).trans (silent_enlist _ _ _)))
    exact .of_journal rfl

theorem silent_warnOutdated (L : Loader) (h : Host) (p : Path) (n : Negotiated) :
    h.Silent (L.warnOutdated h p n) := by
  unfold warnOutdated
  split
  · exact h.silent_note _
  · exact .of_journal rfl

/-! ## Reading a library -/

theorem calls_probes (o : Origin) (h : Host) (ps : List Probe) :
    h.Calls (ps.foldl (probe o) h) ((ps.filterMap Probe.call?).map fun c => (o, c)) := by
  induction ps generalizing h with
  | nil => exact .refl h
  | cons p ps ih =>
    cases p with
    | describe index => exact (h.calls_call o _).trans (ih _)
    | describeLegacy shape => exact (h.calls_call o _).trans (ih _)
    | notice n => exact (h.silent_note n).calls.trans (ih _)

theorem calls_receive (L : Loader) (h : Host) (p : Path) (o : Origin) (exports : Exports) :
    h.Calls (L.receive h p o exports).2.2 (exports.calls.map fun c => (o, c)) := by
  have hread := (h.silent_note (.declares p exports.version exports.infoSize)).calls.trans
    (calls_probes o _ (negotiate exports).1)
  rw [List.nil_append] at hread
  simp only [receive]
  split
  · exact hread.then_silent (Host.silent_closeMapping _ _)
  · next n _ =>
    have hwarned := hread.then_silent (L.silent_warnOutdated _ p n)
    exact (hwarned.then_silent (L.silent_register _ _ o n.infos)).then_silent (Host.silent_note _ _)

end Loader

/-! ## One attempt -/

/-- The load ends before a function of the library is called. -/
def LoadError.Early : LoadError → Prop
  | .notFound _ | .cannotOpen _ => True
  | .abi _ e => e.Early

namespace Host

/-- The library that opening the path leads to declares this version and this size. -/
def Shows (h : Host) (p : Path) (version : Int) (size : Nat) : Prop :=
  ∃ id m, h.locate p = some (id, m) ∧ m.image.version = some version ∧ m.image.infoSize = some size

/-- The calls of an attempt to load: none when there is nothing to open, and those by which the library is
read when it is opened, all into its own code. -/
inductive Asks (h : Host) (p : Path) : List (Origin × Call) → Prop where
  | closed (hnone : h.files.exists? p = false ∨ h.locate p = none) : Asks h p []
  | opened {id : Nat} {m : Mapping} {cs : List Call} (hexists : h.files.exists? p = true)
    (hp : h.locate p = some (id, m)) (hasks : m.image.exports.Asks cs) :
    Asks h p (cs.map fun c => (m.origin id, c))

/-- What is called in an attempt to load the library at `p` that is answered with `r`. -/
structure Guarded (h : Host) (p : Path) (r : Except LoadError (List String)) (calls : List (Origin × Call)) :
    Prop where
  asks : h.Asks p calls
  multi : ∀ o index, (o, .describe index) ∈ calls → h.Shows p 3 40
  fills : ∀ o, (o, .describeLegacy .fills) ∈ calls → h.Shows p 2 24 ∧ calls = [(o, .describeLegacy .fills)]
  returns : ∀ o, (o, .describeLegacy .returns) ∈ calls →
    h.Shows p 1 24 ∧ calls = [(o, .describeLegacy .returns)]
  /-- The two functions are never both called. -/
  apart : ∀ o o' index shape, ¬ ((o, .describe index) ∈ calls ∧ (o', .describeLegacy shape) ∈ calls)
  early : calls = [] ↔ ∃ e, r = .error e ∧ e.Early
  /-- No factory, no cast function and no deleter is called. -/
  only : ∀ o c, (o, c) ∈ calls → c.Describes
  /-- What a function does that is not called makes no difference. -/
  unseen : ∀ id m e, h.locate p = some (id, m) → m.image.exports.Alike e →
    negotiate e = negotiate m.image.exports

variable {h : Host} {p : Path} {calls : List (Origin × Call)}

/-- The calls go to the current function, to the older one in one of its shapes, or there are none. -/
theorem Asks.shape (hasks : h.Asks p calls) :
    calls = [] ∨
      (h.Shows p 3 40 ∧ ∃ o k, calls = (List.range k).map fun i => (o, .describe i)) ∨
      (h.Shows p 2 24 ∧ ∃ o, calls = [(o, .describeLegacy .fills)]) ∨
      (h.Shows p 1 24 ∧ ∃ o, calls = [(o, .describeLegacy .returns)]) := by
  cases hasks with
  | closed => exact .inl rfl
  | @opened id m cs hexists hp hread =>
    have hshows : ∀ {version size}, m.image.exports.Declares version size → h.Shows p version size :=
      fun hd => ⟨id, m, hp, hd.version, hd.infoSize⟩
    cases hread with
    | never => exact .inl rfl
    | @current d k hd => exact .inr (.inl ⟨hshows hd, m.origin id, k + 1, List.map_map⟩)
    | fills hd => exact .inr (.inr (.inl ⟨hshows hd, m.origin id, rfl⟩))
    | returns hd => exact .inr (.inr (.inr ⟨hshows hd, m.origin id, rfl⟩))

theorem Asks.guarded_of_early {r : Except LoadError (List String)} (hasks : h.Asks p calls)
    (hearly : calls = [] ↔ ∃ e, r = .error e ∧ e.Early) : h.Guarded p r calls := by
  have hunseen : ∀ id m e, h.locate p = some (id, m) → m.image.exports.Alike e →
      negotiate e = negotiate m.image.exports := fun _ _ _ _ ha => Exports.negotiate_congr ha
  rcases hasks.shape with rfl | ⟨hshows, o, k, rfl⟩ | ⟨hshows, o, rfl⟩ | ⟨hshows, o, rfl⟩
  · exact ⟨hasks, by simp, by simp, by simp, by simp, hearly, by simp, hunseen⟩
  · refine ⟨hasks, fun _ _ _ => hshows, by simp, by simp, by simp, hearly, fun o' c hc => ?_, hunseen⟩
    obtain ⟨i, -, heq⟩ := List.mem_map.1 hc
    cases heq
    trivial
  · refine ⟨hasks, by simp, fun o' ho => ?_, by simp, by simp, hearly, fun o' c hc => ?_, hunseen⟩
    · cases List.mem_singleton.1 ho
      exact ⟨hshows, rfl⟩
    · cases List.mem_singleton.1 hc
      trivial
  · refine ⟨hasks, by simp, by simp, fun o' ho => ?_, by simp, hearly, fun o' c hc => ?_, hunseen⟩
    · cases List.mem_singleton.1 ho
      exact ⟨hshows, rfl⟩
    · cases List.mem_singleton.1 hc
      trivial

end Host

namespace Loader

/-- Of the answers of a load that reads a library, the early ones are those that come without a call. -/
theorem early_receive_iff (L : Loader) (h : Host) (p : Path) (o : Origin) (exports : Exports) :
    exports.calls = [] ↔ ∃ e, (L.receive h p o exports).1 = .error e ∧ e.Early := by
  rw [Exports.calls_eq_nil_iff, (L.receive_outcome h p o exports).1]
  unfold outcome
  cases (negotiate exports).2 with
  | error x => simp [Except.mapError, LoadError.Early]
  | ok n =>
    simp only
    split <;> simp [Except.mapError]

theorem tryLoad_eq_receive (L : Loader) {h : Host} {p : Path} {id : Nat} {m : Mapping}
    (hexists : h.files.exists? p = true) (hp : h.locate p = some (id, m)) :
    L.tryLoad h p = L.receive ((h.note (.opening p)).hold id m) p (m.origin id) m.image.exports := by
  have hopening : (h.note (.opening p)).locate p = some (id, m) := hp
  simp only [tryLoad, hexists, if_true, Host.openLibrary, hopening, Option.map_some]
  rfl

/-- Whatever is at the path, the calls are guarded. -/
theorem guarded_tryLoad (L : Loader) (h : Host) (p : Path) :
    ∃ calls, h.Calls (L.tryLoad h p).2.2 calls ∧ h.Guarded p (L.tryLoad h p).1 calls := by
  by_cases hexists : h.files.exists? p = true
  · cases hp : h.locate p with
    | none =>
      have heq : L.tryLoad h p = (.error (.cannotOpen p), L, h.note (.opening p)) := by
        have hopening : (h.note (.opening p)).locate p = none := hp
        simp only [tryLoad, hexists, if_true, Host.openLibrary, hopening, Option.map_none]
      refine ⟨[], ?_, Host.Asks.guarded_of_early (.closed (.inr hp)) ?_⟩
      · rw [heq]
        exact (Host.silent_note h (.opening p)).calls
      · rw [heq]
        exact iff_of_true rfl ⟨_, rfl, trivial⟩
    | some found =>
      obtain ⟨id, m⟩ := found
      rw [L.tryLoad_eq_receive hexists hp]
      refine ⟨m.image.exports.calls.map fun c => (m.origin id, c), ?_, ?_⟩
      · have hopened : h.Silent ((h.note (.opening p)).hold id m) :=
          (h.silent_note _).trans (Host.silent_hold _ id m)
        have hboth := hopened.calls.trans (L.calls_receive _ p (m.origin id) m.image.exports)
        rwa [List.nil_append] at hboth
      · refine Host.Asks.guarded_of_early (.opened hexists hp m.image.exports.asks_calls) ?_
        rw [List.map_eq_nil_iff]
        exact L.early_receive_iff _ p _ _
  · have heq : L.tryLoad h p = (.error (.notFound p), L, h) := by simp [tryLoad, hexists]
    refine ⟨[], ?_, Host.Asks.guarded_of_early (.closed (.inl (by simpa using hexists))) ?_⟩
    · rw [heq]
      exact .refl h
    · rw [heq]
      exact iff_of_true rfl ⟨_, rfl, trivial⟩

theorem calls_load {L : Loader} {h : Host} {p : Path} {calls : List (Origin × Call)}
    (hcalls : h.Calls (L.tryLoad h p).2.2 calls) : h.Calls (L.load h p).2.2 calls := by
  unfold load
  split
  · next heq => rwa [heq] at hcalls
  · next heq =>
    rw [heq] at hcalls
    exact hcalls.then_silent (Host.silent_note _ _)

/-! ## One attempt after the other -/

/-- The calls of loads one after the other: those of each are guarded by what its own library declares. -/
inductive Guarded : Loader → Host → List Path → List (Origin × Call) → Prop where
  | nil (L : Loader) (h : Host) : Guarded L h [] []
  | cons {L : Loader} {h : Host} {p : Path} {paths : List Path} {calls more : List (Origin × Call)}
    (first : h.Guarded p (L.tryLoad h p).1 calls)
    (rest : Guarded (L.load h p).2.1 (L.load h p).2.2 paths more) :
    Guarded L h (p :: paths) (calls ++ more)

theorem Guarded.only {L : Loader} {h : Host} {paths : List Path} {calls : List (Origin × Call)}
    (hg : Guarded L h paths calls) {o : Origin} {c : Call} (hc : (o, c) ∈ calls) : c.Describes := by
  induction hg with
  | nil => simp at hc
  | cons first _ ih =>
    rcases List.mem_append.1 hc with hc | hc
    · exact first.only o c hc
    · exact ih hc

theorem guarded_loadAll (L : Loader) (h : Host) (paths : List Path) :
    ∃ calls, h.Calls (L.loadAll h paths).2.2 calls ∧ Guarded L h paths calls := by
  induction paths generalizing L h with
  | nil => exact ⟨[], .refl h, .nil L h⟩
  | cons p paths ih =>
    obtain ⟨calls, hcalls, hfirst⟩ := L.guarded_tryLoad h p
    obtain ⟨more, hmore, hrest⟩ := ih (L.load h p).2.1 (L.load h p).2.2
    refine ⟨calls ++ more, ?_, .cons hfirst hrest⟩
    rw [loadAll_cons]
    exact (calls_load hcalls).trans hmore

end Loader

end PluginHost
