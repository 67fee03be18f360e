import PluginHost.Proofs.Host.Chronicle

/-!
# Every operation of a host is sound

Each operation takes a sound host to a sound host, with the owners moved as the operation says.

* `Host.Sound.log`: an event that moves nothing.
* `Host.Sound.hold`, `Host.Sound.closeMapping`: mappings.
* `Host.Sound.newLibrary`, `Host.Sound.retainLibrary`, `Host.Sound.releaseLibrary`: libraries.
* `Host.Sound.instantiate`, `Host.Sound.retain`, `Host.Sound.release`: instances.
* `Host.Sound.resolve`, `Host.Sound.use`: capabilities.
-/

namespace PluginHost.Host.Sound

set_option autoImplicit false

open PluginHost.Table PluginHost.Journal

variable {births : Nat → Prop} {earlier h : Host} {opened : Multiset Nat} {referred : Multiset Library}
  {held : Multiset Instance} {l : Library} {x : Instance} {m : Nat}

/-! ## Events without instances -/

/-- An event in which no instance is made or deleted. -/
def Quiet : Event → Prop
  | .call _ (.create _ (some _)) | .call _ (.delete _ _) => False
  | _ => True

theorem written {h' : Host} {opened' : Multiset Nat} (hs : Sound births earlier h opened referred held)
    (hb : h'.Balanced opened' referred held) {e : Event} (hq : Quiet e) (ha : Allowed h.journal e)
    (hj : h'.journal = e :: h.journal) (hi : h'.instances = h.instances) (hf : h.fresh ≤ h'.fresh)
    (mapped : ∀ id v, id < h.fresh → h'.mappings.find? id = some v →
      ∃ v₀, h.mappings.find? id = some v₀ ∧ v.image = v₀.image)
    (holds : ∀ m, h'.journal.count (.held m) =
      h'.journal.count (.returned m) + h'.mappings.counter Mapping.holds m) :
    Sound births earlier h' opened' referred held := by
  have hdel : ∀ id, deletions h'.journal id = deletions h.journal id := by
    intro id
    have hno : isDeletion id e = false := by
      match e, hq with
      | .notice _, _ | .held _, _ | .returned _, _ | .call _ (.describe _), _
      | .call _ (.describeLegacy _), _ | .call _ (.create _ none), _
      | .call _ (.cast _ _ _), _ => rfl
    rw [hj, deletions_cons, hno]
    rfl
  have hmade : ∀ o tag id, Created h'.journal o tag id → Created h.journal o tag id := by
    intro o tag id hc
    rw [hj] at hc
    rcases List.mem_cons.1 hc with rfl | hc
    · exact absurd hq (by simp [Quiet])
    · exact hc
  refine hs.step hb ⟨?_, fun o tag id hc => .inl (hmade o tag id hc), hf, mapped, ?_, ?_⟩ ?_ holds ?_
    ?_ ?_
  · rw [hj]; exact List.suffix_cons e _
  · intro id v _ hv
    rw [hi] at hv
    exact ⟨v, hv, rfl⟩
  · intro id _
    rw [hi, ending_self, hdel id, Nat.add_zero]
  · rw [hj]; exact ⟨ha, hs.chronicled.lawful⟩
  · intro id v hv
    rw [hi] at hv
    obtain ⟨hcreated, hnone⟩ := hs.chronicled.born id v hv
    refine ⟨?_, (hdel id).trans hnone⟩
    rw [hj]
    exact List.mem_cons_of_mem e hcreated
  · intro o tag id hc
    exact Nat.lt_of_lt_of_le (hs.chronicled.unborn o tag id (hmade o tag id hc)) hf
  · intro id v hid hv
    rw [hi] at hv
    have hlt := hs.balanced.living_lt_fresh hv
    omega

theorem note (hs : Sound births earlier h opened referred held) (n : Notice) :
    Sound births earlier (h.note n) opened referred held := by
  refine hs.written (hs.balanced.log _) (e := .notice n) trivial trivial rfl rfl (Nat.le_refl _)
    (fun id v _ hv => ⟨v, hv, rfl⟩) fun m => ?_
  have hold := hs.chronicled.holds m
  simpa [Host.note, Host.log] using hold

theorem notes (hs : Sound births earlier h opened referred held) (ns : List Notice) :
    Sound births earlier (ns.foldl Host.note h) opened referred held := by
  induction ns generalizing h with
  | nil => exact hs
  | cons n ns ih => exact ih (hs.note n)

theorem call (hs : Sound births earlier h opened referred held) {o : Origin} {c : Call}
    (hq : Quiet (.call o c)) (hr : Resident h.journal o.mapping) (hp : Permitted h.journal o c) :
    Sound births earlier (h.call o c) opened referred held := by
  refine hs.written (hs.balanced.log _) hq ⟨hr, hp⟩ rfl rfl (Nat.le_refl _)
    (fun id v _ hv => ⟨v, hv, rfl⟩) fun m => ?_
  have hold := hs.chronicled.holds m
  simpa [Host.call, Host.log] using hold

theorem withFiles (hs : Sound births earlier h opened referred held) (files : FileTree) :
    Sound births earlier { h with files := files } opened referred held :=
  hs.silent (hs.balanced.withFiles files) rfl rfl (Nat.le_refl _) (fun _ v hv => ⟨v, hv, rfl⟩)
    fun _ hv => hv

/-! ## Holds on mappings -/

theorem hold (hs : Sound births earlier h opened referred held) {p : Path} {id : Nat} {v : Mapping}
    (hp : h.locate p = some (id, v)) :
    Sound births earlier (h.hold id v) (id ::ₘ opened) referred held := by
  refine hs.written (hs.balanced.hold hp) (e := .held id) trivial trivial rfl rfl
    (Nat.le_max_left _ _) (fun j w hj hw => ?_) fun j => ?_
  · by_cases hji : j = id
    · subst hji
      have hw' : some { v with holds := v.holds + 1 } = some w := (find?_put_self _ _ _).symm.trans hw
      rcases hs.balanced.mapping_of_locate hp with ⟨v₀, hv₀, hextends⟩ | ⟨hnew, -⟩
      · refine ⟨v₀, hv₀, ?_⟩
        rw [← Option.some.inj hw']
        exact hextends.image
      · omega
    · exact ⟨w, (find?_put_of_ne _ _ hji).symm.trans hw, rfl⟩
  · have hold := hs.chronicled.holds j
    have hcounter := counter_put h.mappings Mapping.holds j id { v with holds := v.holds + 1 }
    have hholds := hs.balanced.holds_of_locate hp
    simp only [Host.hold, Host.log, hcounter, List.count_cons, beq_iff_eq, Event.held.injEq,
      reduceCtorEq, if_false, Nat.add_zero]
    by_cases hji : j = id
    · subst hji
      simp only [if_true, hholds]
      omega
    · simp only [hji, Ne.symm hji, if_false]
      omega

/-- What giving back a hold makes of the table of mappings. -/
theorem mappings_closeMapping {v : Mapping} (hv : h.mappings.find? m = some v) :
    (∀ j, (h.closeMapping m).mappings.counter Mapping.holds j =
      if j = m then v.holds - 1 else h.mappings.counter Mapping.holds j) ∧
    (∀ j w, (h.closeMapping m).mappings.find? j = some w →
      ∃ v₀, h.mappings.find? j = some v₀ ∧ w.image = v₀.image) := by
  simp only [Host.closeMapping, hv, Host.log]
  by_cases hlast : v.holds ≤ 1
  · simp only [hlast, if_true]
    refine ⟨fun j => ?_, fun j w hw => ?_⟩
    · rw [counter_erase, Nat.sub_eq_zero_of_le hlast]
    · rw [find?_erase] at hw
      split at hw
      · simp at hw
      · exact ⟨w, hw, rfl⟩
  · simp only [hlast, if_false]
    refine ⟨fun j => counter_put _ _ _ _ _, fun j w hw => ?_⟩
    by_cases hj : j = m
    · subst hj
      rw [find?_put_self, Option.some.injEq] at hw
      exact ⟨v, hv, by rw [← hw]⟩
    · rw [find?_put_of_ne _ _ hj] at hw
      exact ⟨w, hw, rfl⟩

theorem closeMapping (hs : Sound births earlier h (m ::ₘ opened) referred held) :
    Sound births earlier (h.closeMapping m) opened referred held := by
  obtain ⟨v, hv⟩ := hs.balanced.resident_of_opened
  have htable := mappings_closeMapping hv
  have hjournal : (h.closeMapping m).journal = .returned m :: h.journal := by
    simp only [Host.closeMapping, hv, Host.log]
  refine hs.written hs.balanced.closeMapping (e := .returned m) trivial (hs.resident hv) hjournal
    ?_ ?_ (fun j w _ hw => htable.2 j w hw) fun j => ?_
  · simp only [Host.closeMapping, hv, Host.log]
  · simp only [Host.closeMapping, hv, Host.log, Nat.le_refl]
  · have hold := hs.chronicled.holds j
    have hpos := hs.balanced.mappings.positive m v hv
    rw [htable.1 j, hjournal, List.count_cons, List.count_cons]
    by_cases hj : j = m
    · subst hj
      rw [counter_of_find? hv] at hold
      simp only [if_true, beq_self_eq_true, beq_iff_eq, reduceCtorEq, if_false]
      omega
    · simp only [hj, Ne.symm hj, if_false, beq_iff_eq, Event.returned.injEq, reduceCtorEq]
      omega

/-! ## References to libraries -/

theorem withRecords {referred' : Multiset Library} {opened' : Multiset Nat}
    (hs : Sound births earlier h opened referred held) {records : Table Nat Record}
    (hb : Balanced { h with records := records } opened' referred' held) :
    Sound births earlier { h with records := records } opened' referred' held :=
  hs.silent hb rfl rfl (Nat.le_refl _) (fun _ v hv => ⟨v, hv, rfl⟩) fun _ hv => hv

theorem retainLibrary (hs : Sound births earlier h opened referred held) (hl : l ∈ referred) :
    Sound births earlier (h.retainLibrary l) opened (l ::ₘ referred) held := by
  obtain ⟨r, hr, -⟩ := hs.balanced.records.kept l (Multiset.mem_add.2 (.inl hl))
  have hb := hs.balanced.retainLibrary hl
  simp only [Host.retainLibrary, hr] at hb ⊢
  exact hs.withRecords hb

theorem releaseLibrary (hs : Sound births earlier h opened (l ::ₘ referred) held) :
    Sound births earlier (h.releaseLibrary l) opened referred held := by
  obtain ⟨r, hr, hlib⟩ := hs.balanced.records.kept l (by simp)
  have hb := hs.balanced.releaseLibrary
  simp only [Host.releaseLibrary, hr] at hb ⊢
  by_cases hlast : r.references ≤ 1
  · simp only [hlast, if_true]
    exact ((hs.withRecords (hs.balanced.erase_record hr hlib hlast)).note _).closeMapping
  · simp only [hlast, if_false] at hb ⊢
    exact hs.withRecords hb

theorem newLibrary {o : Origin} (hs : Sound births earlier h (o.mapping ::ₘ opened) referred held)
    (path : Path) (plugins : List String) :
    Sound births earlier (h.newLibrary path plugins o).2 opened
      ((h.newLibrary path plugins o).1 ::ₘ referred) held :=
  hs.silent (hs.balanced.newLibrary path plugins) rfl rfl (Nat.le_succ _) (fun _ v hv => ⟨v, hv, rfl⟩)
    fun _ hv => hv

/-! ## Holders of instances -/

/-- A step that gives a new entry to one instance. -/
theorem withLiving {held' : Multiset Instance} (hs : Sound births earlier h opened referred held)
    {id : Nat} {v v' : Living}
    (hb : Balanced { h with instances := h.instances.put id v' } opened referred held')
    (hv : h.instances.find? id = some v) (hbody : v'.body = v.body) :
    Sound births earlier { h with instances := h.instances.put id v' } opened referred held' := by
  refine hs.silent hb rfl rfl (Nat.le_refl _) (fun j w hw => ?_) fun j hj => ?_
  · by_cases hji : j = id
    · subst hji
      rw [find?_put_self, Option.some.injEq] at hw
      exact ⟨v, hv, by rw [← hw, hbody]⟩
    · rw [find?_put_of_ne _ _ hji] at hw
      exact ⟨w, hw, rfl⟩
  · by_cases hji : j = id
    · simp [hji]
    · rw [find?_put_of_ne _ _ hji]
      exact hj

theorem retain (hs : Sound births earlier h opened referred held) (hx : x ∈ held) :
    Sound births earlier (h.retain x) opened referred (x ::ₘ held) := by
  obtain ⟨v, hv, -⟩ := hs.balanced.instances.kept x hx
  have hb := hs.balanced.retain hx
  simp only [Host.retain, hv] at hb ⊢
  exact hs.withLiving hb hv rfl

/-- An instance begins: it gets an entry, and the journal tells of the factory that made it. -/
theorem bear {h' : Host} {v : Living} (hs : Sound births earlier h opened referred held)
    (hid : h.fresh = x.id) (hback : h.Backs x.info x.library) (hbirth : births x.id)
    (hbody : v.body = x) (hb : h'.Balanced opened referred (x ::ₘ held))
    (hj : h'.journal = .call x.library.origin (.create x.tag (some x.id)) :: h.journal)
    (hm : h'.mappings = h.mappings) (hi : h'.instances = put h.instances x.id v)
    (hf : h'.fresh = h.fresh + 1) : Sound births earlier h' opened referred (x ::ₘ held) := by
  have ⟨w, hw, _⟩ := hback
  have hentries : ∀ id w, h'.instances.find? id = some w →
      (id = x.id ∧ w = v) ∨ (id ≠ x.id ∧ h.instances.find? id = some w) := by
    intro id w hw
    rw [hi] at hw
    by_cases hx : id = x.id
    · rw [hx, find?_put_self, Option.some.injEq] at hw
      exact .inl ⟨hx, hw.symm⟩
    · rw [find?_put_of_ne _ _ hx] at hw
      exact .inr ⟨hx, hw⟩
  have hmade : ∀ o tag id, Created h'.journal o tag id →
      id = x.id ∨ Created h.journal o tag id := by
    intro o tag id hc
    rw [hj] at hc
    rcases List.mem_cons.1 hc with hc | hc
    · simp only [Event.call.injEq, Call.create.injEq, Option.some.injEq] at hc
      exact .inl hc.2.2
    · exact .inr hc
  have hunmade : ∀ o tag, ¬ Created h.journal o tag x.id := by
    intro o tag hc
    have hlt := hs.chronicled.unborn o tag x.id hc
    omega
  have hdel : ∀ id, deletions h'.journal id = deletions h.journal id := by
    intro id
    rw [hj]
    exact deletions_cons _ _ _
  refine hs.step hb ⟨?_, ?_, by omega, ?_, ?_, ?_⟩ ?_ ?_ ?_ ?_ ?_
  · rw [hj]; exact List.suffix_cons _ _
  · intro o tag id hc
    rcases hmade o tag id hc with rfl | hc
    · exact .inr hbirth
    · exact .inl hc
  · intro id v _ hv
    rw [hm] at hv
    exact ⟨v, hv, rfl⟩
  · intro id w hlt hw
    rcases hentries id w hw with ⟨rfl, -⟩ | ⟨-, hw⟩
    · omega
    · exact ⟨w, hw, rfl⟩
  · intro id hlt
    have hne : id ≠ x.id := by omega
    rw [hdel, hi, find?_put_of_ne _ _ hne, ending_self, Nat.add_zero]
  · rw [hj]
    exact ⟨⟨hs.resident hw, hunmade⟩, hs.chronicled.lawful⟩
  · intro m
    have hold := hs.chronicled.holds m
    rw [hj, hm]
    simpa using hold
  · intro id w hw
    rw [hdel]
    rcases hentries id w hw with ⟨rfl, rfl⟩ | ⟨-, hw⟩
    · rw [hj, hbody]
      refine ⟨List.mem_cons_self, ?_⟩
      by_contra hne
      obtain ⟨o, tag, hc⟩ := hs.chronicled.lawful.created_of_deletions (Nat.pos_of_ne_zero hne)
      exact hunmade o tag hc
    · have hold := hs.chronicled.born id w hw
      rw [hj]
      exact ⟨List.mem_cons_of_mem _ hold.1, hold.2⟩
  · intro o tag id hc
    rcases hmade o tag id hc with rfl | hc
    · omega
    · have hlt := hs.chronicled.unborn o tag id hc
      omega
  · intro id w hle hw
    rcases hentries id w hw with ⟨-, rfl⟩ | ⟨-, hw⟩
    · rw [hbody]
      obtain ⟨m, hm', hoffers⟩ := hback
      exact ⟨m, by rw [hm]; exact hm', hoffers⟩
    · have hlt := hs.balanced.living_lt_fresh hw
      omega

theorem instantiate (hs : Sound births earlier h opened referred held) {info : PluginInfo}
    (hl : l ∈ referred) (hback : h.Backs info l)
    (hbirth : ∀ x, (h.instantiate info l).1 = some x → births x.id) :
    Sound births earlier (h.instantiate info l).2 opened referred
      (↑(h.instantiate info l).1.toList + held) := by
  obtain ⟨w, hw⟩ := hs.balanced.resident_of_referred hl
  have hresident : Resident h.journal l.origin.mapping := hs.resident hw
  unfold Host.instantiate
  split
  · simpa using (hs.call (c := .create info.factory.tag none) trivial hresident trivial).note _
  · next hp =>
    -- the reference that the library is given is taken over by the new instance
    obtain ⟨r, hr, -⟩ := hs.balanced.records.kept l (Multiset.mem_add.2 (.inl hl))
    have hb := hs.balanced.retainLibrary hl
    simp only [Host.retainLibrary, hr] at hb
    have hb' := (hb.adopt (x := ⟨h.fresh, info, l⟩) rfl info.factory.initial (find?_put_self _ _ _)).log
      (.call l.origin (.create info.factory.tag (some h.fresh)))
    simp only [Host.call, Host.log, Host.retainLibrary, Host.countLive, hr, find?_put_self,
      Option.toList_some, Multiset.coe_singleton, Multiset.singleton_add] at hb' ⊢
    have hborn : births h.fresh := hbirth _ (h.instantiate_fst l hp)
    exact note (hs.bear (x := ⟨h.fresh, info, l⟩) rfl hback hborn rfl hb' rfl rfl rfl rfl) _

/-- What the end of an instance writes into the journal: that it is deleted, if its plugin has a
deleter. -/
def farewell (x : Instance) : List Event :=
  match x.info.deleter with
  | .plugin => [.call x.library.origin (.delete x.tag x.id)]
  | .leak => []

theorem mem_farewell {e : Event} (he : e ∈ farewell x) :
    e = .call x.library.origin (.delete x.tag x.id) := by
  unfold farewell at he
  split at he
  · exact List.mem_singleton.1 he
  · simp at he

theorem deletions_farewell (journal : List Event) (id : Nat) :
    deletions (farewell x ++ journal) id =
      deletions journal id + if id = x.id ∧ x.info.deleter = .plugin then 1 else 0 := by
  unfold farewell
  cases hdel : x.info.deleter with
  | plugin =>
    rw [List.singleton_append, deletions_cons]
    by_cases hid : id = x.id
    · simp [isDeletion, hid]
    · simp [isDeletion, hid, Ne.symm hid]
  | leak => simp

/-- An instance ends: its entry goes, and the journal tells of the deletion. -/
theorem bury {h' : Host} {v : Living} (hs : Sound births earlier h opened referred (x ::ₘ held))
    (hv : h.instances.find? x.id = some v) (hbody : v.body = x)
    (hb : h'.Balanced opened (l ::ₘ referred) held) (hj : h'.journal = farewell x ++ h.journal)
    (hm : h'.mappings = h.mappings) (hi : h'.instances = erase h.instances x.id)
    (hf : h'.fresh = h.fresh) : Sound births earlier h' opened (l ::ₘ referred) held := by
  obtain ⟨w, hw⟩ := hs.balanced.resident_of_held (x := x) (by simp)
  have hborn := hs.chronicled.born x.id v hv
  rw [hbody] at hborn
  have hleft : ∀ id w, h'.instances.find? id = some w →
      id ≠ x.id ∧ h.instances.find? id = some w := by
    intro id w hw
    rw [hi, find?_erase] at hw
    split at hw
    · simp at hw
    · next hne => exact ⟨fun he => hne (by simp [he]), hw⟩
  have hmade : ∀ o tag id, Created h'.journal o tag id → Created h.journal o tag id := by
    intro o tag id hc
    rw [hj] at hc
    rcases List.mem_append.1 hc with hc | hc
    · exact absurd (mem_farewell hc) (by simp)
    · exact hc
  refine hs.step hb ⟨?_, fun o tag id hc => .inl (hmade o tag id hc), hf.ge, ?_, ?_, ?_⟩ ?_ ?_ ?_ ?_ ?_
  · rw [hj]; exact List.suffix_append _ _
  · intro id v _ hv
    rw [hm] at hv
    exact ⟨v, hv, rfl⟩
  · exact fun id w _ hw => ⟨w, (hleft id w hw).2, rfl⟩
  · intro id _
    rw [hj, deletions_farewell, hi]
    by_cases hid : id = x.id
    · subst hid
      simp [hv, ending, hbody]
    · simp [find?_erase, hid, Ne.symm hid, ending_self]
  · rw [hj]
    unfold farewell
    split
    · exact ⟨⟨hs.resident hw, hborn⟩, hs.chronicled.lawful⟩
    · exact hs.chronicled.lawful
  · intro m
    have hold := hs.chronicled.holds m
    rw [hj, hm]
    unfold farewell
    split <;> simpa using hold
  · intro id w hw
    obtain ⟨hne, hw'⟩ := hleft id w hw
    have hold := hs.chronicled.born id w hw'
    rw [hj]
    refine ⟨List.mem_append_right _ hold.1, ?_⟩
    rw [deletions_farewell, if_neg fun he => hne he.1]
    exact hold.2
  · intro o tag id hc
    rw [hf]
    exact hs.chronicled.unborn o tag id (hmade o tag id hc)
  · intro id w hid hw
    have := hs.balanced.living_lt_fresh (hleft id w hw).2
    omega

/-- The last holder goes: the instance is deleted if its plugin has a deleter, and then its library is
given back. -/
theorem destroy (hs : Sound births earlier h opened referred (x ::ₘ held)) {v : Living}
    (hv : h.instances.find? x.id = some v) (hlast : v.uses ≤ 1) :
    Sound births earlier (h.destroy x) opened referred held := by
  obtain ⟨v', hv', hbody⟩ := hs.balanced.instances.kept x (by simp)
  rw [hv, Option.some.injEq] at hv'
  rw [← hv'] at hbody
  obtain ⟨r, hr, -⟩ := hs.balanced.records.kept x.library
    (Multiset.mem_add.2 (.inr (hs.balanced.maker_of_held (by simp))))
  have hb := hs.balanced.orphan hv hlast hr
  unfold Host.destroy
  -- the deleter is called before the reference to the library is given back
  cases hdel : x.info.deleter with
  | plugin =>
    have hb' := hb.log (.call x.library.origin (.delete x.tag x.id))
    simp only [Host.call, Host.log, Host.countLive, hr] at hb' ⊢
    refine releaseLibrary (note (hs.bury hv hbody hb' ?_ rfl rfl rfl) _)
    simp [farewell, hdel]
  | leak =>
    simp only [Host.countLive, hr]
    refine releaseLibrary (note (hs.bury hv hbody hb ?_ rfl rfl rfl) _)
    simp [farewell, hdel]

theorem release (hs : Sound births earlier h opened referred (x ::ₘ held)) :
    Sound births earlier (h.release x) opened referred held := by
  obtain ⟨v, hv, hbody⟩ := hs.balanced.instances.kept x (by simp)
  simp only [Host.release, hv]
  by_cases hlast : v.uses ≤ 1
  · simp only [hlast, if_true]
    exact hs.destroy hv hlast
  · simp only [hlast, if_false]
    refine hs.withLiving (hs.balanced.put_living hv rfl ?_) hv rfl
    exact hs.balanced.instances.put_pred hv hlast rfl hbody

/-! ## Capabilities -/

theorem resolve (hs : Sound births earlier h opened referred held) (hx : x ∈ held) (interface : String) :
    Sound births earlier (h.resolve x interface).2 opened referred held := by
  obtain ⟨w, hw⟩ := hs.balanced.resident_of_held hx
  obtain ⟨v, hv, hbody⟩ := hs.balanced.instances.kept x hx
  have hborn := hs.chronicled.born x.id v hv
  rw [hbody] at hborn
  simp only [Host.resolve, Instance.castCall]
  cases hcaster : x.info.caster interface with
  | none => exact hs
  | some c =>
    cases c with
    | identity => exact hs
    | cast i => exact hs.call (c := .cast x.tag x.id i) trivial (hs.resident hw) hborn

theorem use (hs : Sound births earlier h opened referred held) (x : Instance) (p : Pointer)
    (arg : Argument) :
    Sound births earlier (h.use x p arg).2 opened referred held := by
  have hb := hs.balanced.use x p arg
  unfold Host.use
  split
  · next i v hi hv =>
    simp only [Host.use, hi, hv] at hb
    exact hs.withLiving hb hv rfl
  · exact hs

end PluginHost.Host.Sound
