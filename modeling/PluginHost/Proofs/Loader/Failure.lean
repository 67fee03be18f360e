import PluginHost.Proofs.Host.Restored
import PluginHost.Proofs.Loader.Outcome

/-!
# Loads that fail

There are many ways for a load to fail: there is no such file, it cannot be opened, it is no library that
can be read, or none of its plugins is accepted. In the later ones the library was opened already, and code
of it was called. It is closed again, and what was there before is there as before.

* `Loader.Barren`: what a load answers that did not register anything.
* `Loader.reads_of_barren`: what such a load does.
* `Loader.restored_tryLoad`: such a load leaves the loader and the host as they were.
* `Loader.tryLoad_fst_congr`: what the answer of a load depends on.
-/

namespace PluginHost.Loader

set_option autoImplicit false

open Host (Reads Restored)

/-! ## Reading exports -/

theorem reads_probes (h : Host) (o : Origin) (ps : List Probe) : h.Reads (ps.foldl (probe o) h) := by
  refine .foldl (fun h p => ?_) h ps
  cases p with
  | describe index => exact h.reads_call o trivial
  | describeLegacy shape => exact h.reads_call o trivial
  | notice n => exact h.reads_note n

theorem reads_warnOutdated (L : Loader) (h : Host) (p : Path) (n : Negotiated) :
    h.Reads (L.warnOutdated h p n) := by
  unfold warnOutdated
  split
  · exact h.reads_note _
  · exact .refl h

/-! ## What is closed again -/

/-- The answer names no plugin: it is an error, or there was none to be registered. -/
def Barren (answer : Except LoadError (List String)) : Prop := ∀ names, answer = .ok names → names = []

theorem loader_of_barren {L : Loader} {h : Host} {p : Path} (hbarren : Barren (L.tryLoad h p).1) :
    (L.tryLoad h p).2.1 = L := by
  rcases L.tryLoad_loader h p with ⟨-, heq⟩ | ⟨_, library, -, hok, hsome, -⟩
  · exact heq
  · exact absurd (hbarren _ hok) hsome

theorem register_of_barren {L : Loader} {h : Host} {key : Path} {o : Origin} {infos : List PluginInfo}
    (hbarren : (L.register h key o infos).1 = []) :
    ∃ judged, h.Reads judged ∧ (L.register h key o infos).2.2 = judged.closeMapping o.mapping := by
  by_cases hnone : L.accepted key infos = []
  · refine ⟨(L.verdicts key infos).foldl Host.note h, .foldl Host.reads_note h _, ?_⟩
    simp [register, hnone]
  · have hnames : (L.register h key o infos).1 = (record 0 key o (L.accepted key infos)).plugins := by
      simp [register, hnone, record]
    rw [hnames] at hbarren
    exact absurd hbarren (plugins_record_ne_nil hnone)

/-- A library that is read in vain is closed after nothing but reading. -/
theorem receive_of_barren {L : Loader} {h : Host} {p : Path} {o : Origin} {exports : Exports}
    (hbarren : Barren (L.receive h p o exports).1) :
    ∃ read, h.Reads read ∧ (read.closeMapping o.mapping).Reads (L.receive h p o exports).2.2 := by
  have hread : h.Reads ((negotiate exports).1.foldl (probe o)
      (h.note (.declares p exports.version exports.infoSize))) :=
    (h.reads_note _).trans (reads_probes _ o _)
  simp only [receive] at hbarren ⊢
  cases hn : (negotiate exports).2 with
  | error e => exact ⟨_, hread, .refl _⟩
  | ok n =>
    simp only [hn] at hbarren
    obtain ⟨judged, hjudged, hclosed⟩ := register_of_barren (hbarren _ rfl)
    refine ⟨judged, (hread.trans (L.reads_warnOutdated _ p n)).trans hjudged, ?_⟩
    simp only [hclosed]
    exact Host.reads_note _ _

/-- A load that registers nothing does nothing but read, between opening and closing the library if it was
opened. -/
theorem reads_of_barren {L : Loader} {h : Host} {p : Path} (hbarren : Barren (L.tryLoad h p).1) :
    h.Reads (L.tryLoad h p).2.2 ∨ ∃ id m read, h.locate p = some (id, m) ∧
      ((h.note (.opening p)).hold id m).Reads read ∧ (read.closeMapping id).Reads (L.tryLoad h p).2.2 := by
  unfold tryLoad at hbarren ⊢
  split
  · next hexists =>
    have hlocate : (h.note (.opening p)).locate p = h.locate p := rfl
    simp only [hexists, if_true, Host.openLibrary, hlocate] at hbarren ⊢
    cases hp : h.locate p with
    | none => exact .inl (h.reads_note _)
    | some found =>
      obtain ⟨id, m⟩ := found
      simp only [hp, Option.map_some] at hbarren ⊢
      obtain ⟨read, hread, hclosed⟩ := receive_of_barren hbarren
      exact .inr ⟨id, m, read, rfl, hread, hclosed⟩
  · exact .inl (.refl h)

/-- A load that registers nothing leaves the loader and the host as they were. -/
theorem restored_tryLoad {L : Loader} {h : Host} {p : Path} {referred : Multiset Library}
    {held : Multiset Instance} (hb : h.Balanced 0 referred held)
    (hbarren : Barren (L.tryLoad h p).1) :
    (L.tryLoad h p).2.1 = L ∧ h.Restored (L.tryLoad h p).2.2 := by
  refine ⟨loader_of_barren hbarren, ?_⟩
  rcases reads_of_barren hbarren with hread | ⟨id, m, read, hp, hread, hclosed⟩
  · exact .of_reads hread (.refl _)
  · have hopening : h.Reads (h.note (.opening p)) := h.reads_note _
    exact .of_reads hopening ((Host.restored_of_reads (hb.log _) hp hread).reads hclosed)

/-- The load that only says why it registers nothing answers no names and has no other effect. -/
theorem restored_load {L : Loader} {h : Host} {p : Path} {referred : Multiset Library}
    {held : Multiset Instance} (hb : h.Balanced 0 referred held)
    (hbarren : Barren (L.tryLoad h p).1) :
    (L.load h p).1 = [] ∧ (L.load h p).2.1 = L ∧ h.Restored (L.load h p).2.2 := by
  obtain ⟨hloader, hrestored⟩ := restored_tryLoad hb hbarren
  unfold load
  split
  · next names L' h' heq =>
    rw [heq] at hbarren hloader hrestored
    exact ⟨hbarren names rfl, hloader, hrestored⟩
  · next e L' h' heq =>
    rw [heq] at hloader hrestored
    exact ⟨rfl, hloader, hrestored.reads (h'.reads_note _)⟩

/-! ## What loads answer -/

/-- What some exports answer is the same for all identities and origins. -/
theorem outcome_fst_congr (L : Loader) (id id' : Nat) (key : Path) (o o' : Origin) (exports : Exports) :
    (L.outcome id key o exports).1 = (L.outcome id' key o' exports).1 := by
  unfold outcome
  split
  · rfl
  · simp only
    split <;> rfl

/-- What a load answers depends on the files and on the image that the path leads to. -/
theorem tryLoad_fst_congr (L : Loader) {h h' : Host} {p : Path} (hfiles : h'.files = h.files)
    (himage : h'.imageAt p = h.imageAt p) : (L.tryLoad h' p).1 = (L.tryLoad h p).1 := by
  by_cases hexists : h.files.exists? p = true
  · have hexists' : h'.files.exists? p = true := by rw [hfiles, hexists]
    rw [(L.tryLoad_outcome hexists).1, (L.tryLoad_outcome hexists').1, hfiles]
    simp only [Host.imageAt] at himage
    cases hp : h.locate p with
    | none =>
      rw [hp, Option.map_none, Option.map_eq_none_iff] at himage
      rw [himage]
      rfl
    | some found =>
      rw [hp, Option.map_some, Option.map_eq_some_iff] at himage
      obtain ⟨found', hp', hsame⟩ := himage
      rw [hp']
      simp only [Option.map_some, Host.code, hsame]
      rw [L.outcome_fst_congr]
  · have hexists' : ¬ h'.files.exists? p = true := by rw [hfiles]; exact hexists
    simp [tryLoad, hexists, hexists']

theorem load_fst (L : Loader) (h : Host) (p : Path) :
    (L.load h p).1 = match (L.tryLoad h p).1 with
      | .ok names => names
      | .error _ => [] := by
  unfold load
  split
  · next heq => rw [heq]
  · next heq => rw [heq]

theorem load_of_ok {L : Loader} {h : Host} {p : Path} {names : List String}
    (hok : (L.tryLoad h p).1 = .ok names) : L.load h p = (names, (L.tryLoad h p).2) := by
  unfold load
  split
  · next heq =>
    rw [heq] at hok ⊢
    rw [Except.ok.inj hok]
  · next heq => simp [heq] at hok

theorem load_of_error {L : Loader} {h : Host} {p : Path} {e : LoadError}
    (herror : (L.tryLoad h p).1 = .error e) :
    L.load h p = ([], (L.tryLoad h p).2.1, (L.tryLoad h p).2.2.note (.loadFailed e)) := by
  unfold load
  split
  · next heq => simp [heq] at herror
  · next heq =>
    rw [heq] at herror ⊢
    rw [Except.error.inj herror]

theorem load_fst_congr (L : Loader) {h h' : Host} {p : Path} (hfiles : h'.files = h.files)
    (himage : h'.imageAt p = h.imageAt p) : (L.load h' p).1 = (L.load h p).1 := by
  rw [load_fst, load_fst, L.tryLoad_fst_congr hfiles himage]

end PluginHost.Loader
