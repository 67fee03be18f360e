import PluginHost.Proofs.Loader.Operation

/-!
# The history of a loader

What a loader knows follows from what its operations answered: which names were registered under which key,
and which keys were forgotten. Told from the beginning, these episodes say who owns a name, and which
libraries are listed. The index and the table of a loader say the same, though the index is pruned by the
paths of libraries that may have been replaced since.

* `Loader.Episode`, `Loader.owners`, `Loader.Standing`: the episodes and what they come to.
* `Loader.Operation.episodes`, `Loader.history`: the episodes that operations answer.
* `Loader.Recounts`: the tables of a loader say what a history comes to.
* `Loader.recounts_after`: so it is after all operations, whatever the hosts are.
-/

namespace PluginHost.Loader

set_option autoImplicit false

open PluginHost.Table

/-! ## Episodes -/

/-- A load registered the plugins of these names under a key, or a key was forgotten. -/
inductive Episode where
  | registered (key : Path) (names : List String)
  | forgot (key : Path)
  deriving DecidableEq

namespace Episode

def key : Episode → Path
  | .registered key _ => key
  | .forgot key => key

/-- Who owns which name after the episode. Keys are the same when they have the same parts. -/
def transfer (owner : String → Option Path) (e : Episode) : String → Option Path :=
  match e with
  | .registered key names => fun n => if n ∈ names then some key else owner n
  | .forgot key => fun n => (owner n).filter fun k => !(k == key)

end Episode

/-- Who owns which name after a history; in the beginning nobody owns any. -/
def owners (history : List Episode) : String → Option Path :=
  history.foldl Episode.transfer fun _ => none

/-- The last that happened to a key is that these names were registered under it. -/
def Standing (history : List Episode) (key : Path) (names : List String) : Prop :=
  ∃ earlier later, history = earlier ++ .registered key names :: later ∧
    ∀ e ∈ later, ¬ (e.key == key) = true

theorem owners_concat (history : List Episode) (e : Episode) :
    owners (history ++ [e]) = e.transfer (owners history) := by
  simp [owners, List.foldl_append]

theorem standing_concat {history : List Episode} {e : Episode} {key : Path} {names : List String} :
    Standing (history ++ [e]) key names ↔
      e = .registered key names ∨ ¬ (e.key == key) = true ∧ Standing history key names := by
  constructor
  · rintro ⟨earlier, later, heq, hlater⟩
    rcases List.eq_nil_or_concat later with rfl | ⟨front, last, rfl⟩
    · have hlast := List.append_inj_right' heq rfl
      exact .inl (List.singleton_inj.1 hlast)
    · have hsplit : history ++ [e] = (earlier ++ .registered key names :: front) ++ [last] := by
        rw [heq]
        simp
      obtain ⟨hfront, hlast⟩ := List.append_inj' hsplit rfl
      obtain rfl := List.singleton_inj.1 hlast
      refine .inr ⟨hlater e (by simp), earlier, front, hfront, fun d hd => ?_⟩
      exact hlater d (by simp [hd])
  · rintro (rfl | ⟨hother, earlier, later, rfl, hlater⟩)
    · exact ⟨history, [], rfl, by simp⟩
    · refine ⟨earlier, later ++ [e], by simp, fun d hd => ?_⟩
      rcases List.mem_append.1 hd with hd | hd
      · exact hlater d hd
      · rw [List.mem_singleton.1 hd]
        exact hother

/-! ## What operations answer -/

/-- The episode of a load under a key that answered some names. -/
def registration (key : Path) (names : List String) : List Episode :=
  if names.isEmpty then [] else [.registered key names]

def loadEpisodes (L : Loader) (h : Host) (p : Path) : List Episode :=
  registration (libraryKey h.files p) (L.load h p).1

/-- The episodes of paths that are loaded one after the other. -/
def loadAllEpisodes (L : Loader) (h : Host) : List Path → List Episode
  | [] => []
  | p :: rest => L.loadEpisodes h p ++ loadAllEpisodes (L.load h p).2.1 (L.load h p).2.2 rest

/-- The episode of a forgetting that answered whether it did, with the key that the path stands for. -/
def forgetEpisodes (L : Loader) (h : Host) (p : Path) : List Episode :=
  if (L.forget h p).1 then (L.listedKey h.files p).toList.map .forgot else []

def Operation.episodes (L : Loader) (h : Host) : Operation → List Episode
  | .load p => L.loadEpisodes h p
  | .tryLoad p =>
    match (L.tryLoad h p).1 with
    | .ok names => registration (libraryKey h.files p) names
    | .error _ => []
  | .loadAll paths => L.loadAllEpisodes h paths
  | .loadConfigured => L.loadAllEpisodes h L.config.preload
  | .forget p => L.forgetEpisodes h p
  | .forgetOf plugin =>
    match L.libraryOf plugin with
    | some p => L.forgetEpisodes h p
    | none => []

/-- The episodes of operations, each of which meets a host of its own. -/
def history (L : Loader) : List (Host × Operation) → List Episode
  | [] => []
  | (h, o) :: rest => o.episodes L h ++ history (o.perform L h).1 rest

/-! ## The tables of a loader -/

/-- The index says who owns a name after the history, and the table what is standing after it. -/
structure Recounts (L : Loader) (history : List Episode) : Prop where
  consistent : L.Consistent
  owner : ∀ n, (L.index.find? n).map (fun e => e.library.path) = owners history n
  listed : ∀ key names,
    (∃ l, L.libraries.find? key = some l ∧ l.path = key ∧ l.plugins = names) ↔
      Standing history key names

theorem recounts_withConfig (config : Config) : (withConfig config).Recounts [] where
  consistent := consistent_withConfig config
  owner := by intro n; simp [withConfig, owners]
  listed := by intro key names; simp [withConfig, Standing]

namespace Recounts

variable {L : Loader} {history : List Episode}

theorem registered (hr : L.Recounts history) {library : Library} {infos : List PluginInfo}
    (hp : ∀ n, n ∈ library.plugins ↔ ∃ info ∈ infos, info.name = n) :
    (L.registered library infos).Recounts
      (history ++ [.registered library.path library.plugins]) where
  consistent := hr.consistent.registered hp
  owner := by
    intro n
    rw [owners_concat]
    simp only [Episode.transfer]
    split
    · next hn =>
      obtain ⟨e, hfound, hlib⟩ : ∃ e, (L.registered library infos).index.find? n = some e ∧
          e.library = library := exists_find?_indexed ((hp n).1 hn) L.index
      rw [hfound, Option.map_some, hlib]
    · next hn =>
      have hnone : ∀ info ∈ infos, info.name ≠ n := fun info hinfo hname =>
        hn ((hp n).2 ⟨info, hinfo, hname⟩)
      have hsame : (L.registered library infos).index.find? n = L.index.find? n :=
        find?_indexed_of_ne hnone L.index
      rw [hsame]
      exact hr.owner n
  listed := by
    intro key names
    simp only [standing_concat, Loader.registered, find?_put, Episode.key, Episode.registered.injEq]
    by_cases hkey : (library.path == key) = true
    · simp [hkey]
    · have hne : ¬ library.path = key := fun h => hkey (h ▸ BEq.rfl)
      simp [hkey, hne, hr.listed key names]

theorem remove (hr : L.Recounts history) (key : Path) :
    (L.remove key).Recounts (history ++ [.forgot key]) where
  consistent := hr.consistent.remove key
  owner := by
    intro n
    have hfilter : (L.remove key).index.find? n =
        (L.index.find? n).filter fun e => !(e.library.path == key) :=
      find?_filter hr.consistent.index (fun e => !(e.library.path == key)) n
    rw [hfilter, owners_concat]
    simp only [Episode.transfer, ← hr.owner n]
    cases L.index.find? n with
    | none => rfl
    | some e => cases hkey : e.library.path == key <;> simp [Option.filter, hkey]
  listed := by
    intro other names
    simp only [standing_concat, Loader.remove, find?_erase, Episode.key]
    by_cases hkey : (key == other) = true
    · simp [hkey]
    · simp [hkey, hr.listed other names]

/-! ## Loading -/

theorem tryLoad (hr : L.Recounts history) {h : Host} {p : Path} {names : List String}
    (hok : (L.tryLoad h p).1 = .ok names) :
    (L.tryLoad h p).2.1.Recounts (history ++ registration (libraryKey h.files p) names) := by
  rcases tryLoad_ok hok with ⟨rfl, heq⟩ | ⟨hsome, library, infos, heq, hpath, hplugins, hp⟩
  · rw [heq]
    simpa [registration] using hr
  · have hone : registration (libraryKey h.files p) names = [.registered library.path library.plugins] := by
      simp [registration, hsome, hpath, hplugins]
    rw [heq, hone]
    exact hr.registered hp

theorem tryLoad_error (hr : L.Recounts history) {h : Host} {p : Path} {e : LoadError}
    (herror : (L.tryLoad h p).1 = .error e) : (L.tryLoad h p).2.1.Recounts history := by
  rcases L.tryLoad_loader h p with ⟨-, heq⟩ | ⟨_, library, -, hok, -, -⟩
  · rw [heq]
    exact hr
  · rw [herror] at hok
    cases hok

theorem load (hr : L.Recounts history) (h : Host) (p : Path) :
    (L.load h p).2.1.Recounts (history ++ L.loadEpisodes h p) := by
  rw [load_loader]
  unfold loadEpisodes Loader.load
  split
  · next names _ _ heq => exact hr.tryLoad (by rw [heq])
  · next e _ _ heq =>
    have herror : (L.tryLoad h p).1 = .error e := by rw [heq]
    simpa [registration] using hr.tryLoad_error herror

theorem loadAll (hr : L.Recounts history) (h : Host) (paths : List Path) :
    (L.loadAll h paths).2.1.Recounts (history ++ L.loadAllEpisodes h paths) := by
  unfold Loader.loadAll
  generalize ([] : List String) = names
  induction paths generalizing L h names history with
  | nil => simpa [loadAllEpisodes] using hr
  | cons p paths ih =>
    have hrest := ih (hr.load h p) (L.load h p).2.2 (names ++ (L.load h p).1)
    rw [List.append_assoc] at hrest
    exact hrest

/-! ## Forgetting -/

theorem forget (hr : L.Recounts history) (h : Host) (p : Path) :
    (L.forget h p).2.1.Recounts (history ++ L.forgetEpisodes h p) := by
  unfold forgetEpisodes
  cases hkey : L.listedKey h.files p with
  | none =>
    obtain ⟨hanswer, heq⟩ := forget_of_not_listed hkey
    rw [hanswer, heq]
    simpa using hr
  | some key =>
    obtain ⟨hanswer, heq⟩ := forget_of_listedKey hkey
    rw [hanswer, heq]
    exact hr.remove key

/-! ## All operations -/

theorem perform (hr : L.Recounts history) (h : Host) (o : Operation) :
    (o.perform L h).1.Recounts (history ++ o.episodes L h) := by
  cases o with
  | load p => exact hr.load h p
  | tryLoad p =>
    simp only [Operation.episodes, Operation.perform]
    cases htry : (L.tryLoad h p).1 with
    | ok names => exact hr.tryLoad htry
    | error e => simpa using hr.tryLoad_error htry
  | loadAll paths => exact hr.loadAll h paths
  | loadConfigured => exact hr.loadAll h L.config.preload
  | forget p => exact hr.forget h p
  | forgetOf plugin =>
    simp only [Operation.episodes, Operation.perform, Loader.forgetOf]
    cases L.libraryOf plugin with
    | some p => exact hr.forget h p
    | none => simpa using hr

theorem after (hr : L.Recounts history) (operations : List (Host × Operation)) :
    (L.after operations).Recounts (history ++ L.history operations) := by
  induction operations generalizing L history with
  | nil =>
    rw [Loader.history, List.append_nil]
    exact hr
  | cons step rest ih =>
    have hrest := ih (hr.perform step.1 step.2)
    rw [List.append_assoc] at hrest
    exact hrest

end Recounts

/-- The tables of a loader say what its history comes to, for all settings, operations and hosts. -/
theorem recounts_after (config : Config) (operations : List (Host × Operation)) :
    ((withConfig config).after operations).Recounts ((withConfig config).history operations) :=
  (recounts_withConfig config).after operations

end PluginHost.Loader
