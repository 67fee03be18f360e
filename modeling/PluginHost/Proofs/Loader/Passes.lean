import PluginHost.Proofs.Loader.Agreement
import PluginHost.Proofs.Loader.Offers

/-!
# Loads as offers

What a load answers and makes of the outline of a loader is what comes of an offer, whatever the host is. Loading
a list of libraries is one load after the other. While the files stay as they are, every path offers the same
each time, so that the list loaded again answers the same and leaves the outline as it is.

* `Host.offer`, `Loader.load_offer`: a load is an offer.
* `Loader.answersOf`, `Loader.loadAll_fst`: a list of libraries answers all that its loads answer.
* `Loader.loadAll_offers`: in files that stay, it is a list of offers.
* `Loader.loadAll_again`: the same list once more.
-/

namespace PluginHost

set_option autoImplicit false

open PluginHost.Table

/-! ## Offers -/

/-- What a load of the path offers: the plugins that are read from the image it leads to. -/
def Host.offer (h : Host) (p : Path) : Offer where
  key := Loader.libraryKey h.files p
  infos :=
    if h.files.exists? p then
      match (h.imageAt p).map fun image => (negotiate image.exports).2 with
      | some (.ok n) => n.infos
      | _ => []
    else []

theorem Host.offer_congr {h h' : Host} {p : Path} (hfiles : h'.files = h.files)
    (himage : h'.imageAt p = h.imageAt p) : h'.offer p = h.offer p := by
  simp only [offer, hfiles, himage]

theorem Outline.received_of_none {O : Outline} {o : Offer} (hnone : o.infos = []) :
    O.named o = [] ∧ O.received o = O := by
  have hadmitted : O.admitted o = [] := by simp [admitted, hnone]
  simp [named, received, hadmitted, Ordered.ofList]

namespace Loader

variable {L : Loader} {h : Host} {p : Path}

theorem admitted_outline (L : Loader) (o : Offer) : L.outline.admitted o = L.admitted o.key o.infos := by
  refine List.filter_congr fun info _ => ?_
  rw [decide_eq_decide, admits_iff]

/-- Reading some exports makes of an outline what the plugins that are read make of it. -/
theorem outcome_offer (L : Loader) (id : Nat) (key : Path) (o : Origin) {exports : Exports} {n : Negotiated}
    (hn : (negotiate exports).2 = .ok n) :
    (L.outcome id key o exports).1 = .ok (L.outline.named ⟨key, n.infos⟩) ∧
      (L.outcome id key o exports).2.outline = L.outline.received ⟨key, n.infos⟩ := by
  unfold outcome Outline.named Outline.received
  simp only [hn, accepted_eq, admitted_outline]
  cases hchosen : L.admitted key n.infos with
  | nil => exact ⟨rfl, rfl⟩
  | cons info rest =>
    refine ⟨rfl, ?_⟩
    simp only [List.isEmpty_cons, Bool.false_eq_true, if_false]
    rw [outline_registered, Outline.named, admitted_outline, hchosen]
    rfl

/-- A load that fails comes of an offer of nothing. -/
theorem load_offer_of_error {e : LoadError} (herror : (L.tryLoad h p).1 = .error e)
    (hnone : (h.offer p).infos = []) : (L.load h p).1 = L.outline.named (h.offer p) ∧
      (L.load h p).2.1.outline = L.outline.received (h.offer p) := by
  obtain ⟨hnamed, hreceived⟩ := Outline.received_of_none (O := L.outline) hnone
  have hstays : (L.tryLoad h p).2.1 = L := loader_of_barren fun names hok => by simp [herror] at hok
  rw [load_fst, load_loader, hnamed, hreceived, hstays, herror]
  exact ⟨rfl, rfl⟩

/-- A load answers the names that are let in of what the path offers, and registers the offer. -/
theorem load_offer (L : Loader) (h : Host) (p : Path) :
    (L.load h p).1 = L.outline.named (h.offer p) ∧
      (L.load h p).2.1.outline = L.outline.received (h.offer p) := by
  by_cases hexists : h.files.exists? p = true
  · obtain ⟨hanswer, hloader⟩ := L.tryLoad_outcome hexists
    cases hp : h.locate p with
    | none =>
      rw [hp] at hanswer
      exact load_offer_of_error hanswer (by simp [Host.offer, Host.imageAt, hp])
    | some found =>
      obtain ⟨id, m⟩ := found
      simp only [hp, Option.map_some, Host.code] at hanswer hloader
      cases hn : (negotiate m.image.exports).2 with
      | error e =>
        simp only [outcome, hn, Except.mapError] at hanswer
        exact load_offer_of_error hanswer (by simp [Host.offer, Host.imageAt, hp, hn])
      | ok n =>
        obtain ⟨hnames, houtline⟩ := L.outcome_offer (max h.fresh (id + 1)) (libraryKey h.files p)
          ⟨id, m.image.id, m.image.reports⟩ hn
        have hoffer : h.offer p = ⟨libraryKey h.files p, n.infos⟩ := by
          simp [Host.offer, Host.imageAt, hexists, hp, hn]
        rw [load_fst, load_loader, hanswer, hloader, hnames, houtline, hoffer]
        exact ⟨rfl, rfl⟩
  · have hanswer : (L.tryLoad h p).1 = .error (.notFound p) := by simp [tryLoad, hexists]
    exact load_offer_of_error hanswer (by simp [Host.offer, hexists])

/-! ## Lists of libraries -/

/-- What the loads of a list answer, one after the other. -/
def answersOf (L : Loader) (h : Host) : List Path → List (List String)
  | [] => []
  | p :: rest => (L.load h p).1 :: answersOf (L.load h p).2.1 (L.load h p).2.2 rest

/-- A list of libraries answers the union of what its loads answer. -/
theorem loadAll_fst (L : Loader) (h : Host) (paths : List Path) :
    (L.loadAll h paths).1 = Ordered.ofList (L.answersOf h paths).flatten := by
  have hloop : ∀ (paths : List Path) (names : List String) (L : Loader) (h : Host),
      (paths.foldl (fun state p =>
        let step := state.2.1.load state.2.2 p
        (state.1 ++ step.1, step.2)) (names, L, h)).1 = names ++ (L.answersOf h paths).flatten := by
    intro paths
    induction paths with
    | nil => exact fun names _ _ => (List.append_nil names).symm
    | cons p rest ih =>
      intro names L h
      rw [List.foldl_cons, ih, answersOf, List.flatten_cons, List.append_assoc]
  exact congrArg Ordered.ofList (hloop paths [] L h)

/-- A list of libraries keeps what is known. -/
theorem precedes_loadAll (L : Loader) (h : Host) (paths : List Path) :
    L.outline.Precedes (L.loadAll h paths).2.1.outline := by
  refine loadAll_induction (motive := fun L' _ => L.outline.Precedes L'.outline) paths (.refl _) ?_
  intro L' h' p hprecedes
  rw [(L'.load_offer h' p).2]
  exact hprecedes.trans (L'.outline.precedes_received _)

/-- Every name that a load of a list answers is known after the list. -/
theorem known_of_answersOf {paths : List Path} {n : String} {names : List String}
    (hnames : names ∈ L.answersOf h paths) (hn : n ∈ names) :
    ∃ e, (L.loadAll h paths).2.1.outline.index.find? n = some e := by
  induction paths generalizing L h with
  | nil => cases hnames
  | cons p rest ih =>
    rw [loadAll_cons]
    rcases List.mem_cons.1 hnames with rfl | hnames
    · rw [(L.load_offer h p).1] at hn
      obtain ⟨info, hinfo⟩ := Outline.exists_find?_of_named hn
      rw [← (L.load_offer h p).2] at hinfo
      obtain ⟨e, he, -⟩ := (precedes_loadAll _ (L.load h p).2.2 rest).known n _ hinfo
      exact ⟨e, he⟩
    · exact ih hnames

/-! ## Files that stay -/

/-- In files that stay, paths offer later what they offered before. -/
theorem map_offer_of_evolves {h' : Host} (hf : h.Faithful) (hc : h.files.Coherent) (he : h.Evolves h')
    (paths : List Path) : paths.map h'.offer = paths.map h.offer := by
  have hc' : h'.files.Coherent := he.files.symm ▸ hc
  refine List.map_congr_left fun q _ => Host.offer_congr he.files ?_
  rw [(hf.evolves hc he).imageAt_eq hc', hf.imageAt_eq hc, he.files]

/-- In files that stay, every path of a list offers what it offered at the start. -/
theorem loadAll_offers (hf : h.Faithful) (hc : h.files.Coherent) (paths : List Path) :
    L.answersOf h paths = L.outline.answers (paths.map h.offer) ∧
      (L.loadAll h paths).2.1.outline = L.outline.passed (paths.map h.offer) := by
  induction paths generalizing L h with
  | nil => exact ⟨rfl, rfl⟩
  | cons p rest ih =>
    obtain ⟨hnamed, hreceived⟩ := L.load_offer h p
    have he := L.evolves_load h p
    obtain ⟨hanswers, houtline⟩ := ih (L := (L.load h p).2.1) (hf.evolves hc he) (he.files.symm ▸ hc)
    rw [hreceived, map_offer_of_evolves hf hc he] at hanswers houtline
    rw [loadAll_cons, answersOf, List.map_cons, Outline.answers_cons, hnamed, hanswers]
    exact ⟨rfl, houtline⟩

/-- In files that stay, a list of libraries that is loaded once more answers the same names and leaves the
outline as it is. -/
theorem loadAll_again (hf : h.Faithful) (hc : h.files.Coherent) (hindex : L.index.Distinct)
    (hlibraries : L.libraries.Distinct) (paths : List Path) :
    let first := L.loadAll h paths
    let second := first.2.1.loadAll first.2.2 paths
    second.1 = first.1 ∧ second.2.1.outline = first.2.1.outline := by
  intro first second
  have he : h.Evolves first.2.2 := L.evolves_loadAll h paths
  obtain ⟨hanswers, houtline⟩ := loadAll_offers (L := L) hf hc paths
  obtain ⟨hanswers', houtline'⟩ :=
    loadAll_offers (L := first.2.1) (hf.evolves hc he) (he.files.symm ▸ hc) paths
  have hindex' : L.outline.index.Distinct := hindex.mapValues fun e => (e.info, e.library.path)
  have hlibraries' : L.outline.libraries.Distinct := hlibraries.mapValues fun l => (l.path, l.plugins)
  obtain ⟨hsame, hstays⟩ := Outline.passed_passed hindex' hlibraries' (paths.map h.offer)
  rw [map_offer_of_evolves hf hc he, houtline] at hanswers' houtline'
  constructor
  · show (first.2.1.loadAll first.2.2 paths).1 = (L.loadAll h paths).1
    rw [loadAll_fst, loadAll_fst, hanswers', hsame, hanswers]
  · exact houtline'.trans (hstays.trans houtline.symm)

end Loader

end PluginHost
