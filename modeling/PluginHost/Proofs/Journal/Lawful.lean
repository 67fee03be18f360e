import PluginHost.Journal

/-!
# Lawful journals

A journal tells by itself whether plugin code was used as it may be. It has the newest event in front, so
what stands behind an event is what had happened before it.

* `Journal.Resident`: more holds were taken on a mapping than returned.
* `Journal.deletions`: how often an instance was deleted.
* `Journal.Allowed`: what may happen next. Code is called only while its mapping is resident; an instance
  is new when a factory makes it, and is cast and deleted only after that and before it is deleted.
* `Journal.Lawful`: every event was allowed when it happened.
-/

namespace PluginHost.Journal

set_option autoImplicit false

/-! ## What a journal says -/

/-- More holds were taken on the mapping than returned. -/
def Resident (journal : List Event) (m : Nat) : Prop :=
  journal.count (.returned m) < journal.count (.held m)

instance (journal : List Event) (m : Nat) : Decidable (Resident journal m) :=
  inferInstanceAs (Decidable (_ < _))

/-- Whether an event is the deletion of an instance. -/
def isDeletion (id : Nat) : Event → Bool
  | .call _ (.delete _ other) => other == id
  | _ => false

def deletions (journal : List Event) (id : Nat) : Nat := journal.countP (isDeletion id)

/-- A factory of `o` made the instance and called it `tag`. -/
def Created (journal : List Event) (o : Origin) (tag : String) (id : Nat) : Prop :=
  .call o (.create tag (some id)) ∈ journal

theorem deletions_cons (e : Event) (journal : List Event) (id : Nat) :
    deletions (e :: journal) id = deletions journal id + if isDeletion id e then 1 else 0 :=
  List.countP_cons

theorem deletions_append (later journal : List Event) (id : Nat) :
    deletions (later ++ journal) id = deletions later id + deletions journal id :=
  List.countP_append

theorem deletions_reverse (journal : List Event) (id : Nat) :
    deletions journal.reverse id = deletions journal id :=
  List.countP_reverse

theorem deletions_pos {journal : List Event} {o : Origin} {tag : String} {id : Nat}
    (h : .call o (.delete tag id) ∈ journal) : 0 < deletions journal id :=
  List.countP_pos_iff.2 ⟨_, h, by simp [isDeletion]⟩

theorem Created.mono {earlier journal : List Event} {o : Origin} {tag : String} {id : Nat}
    (h : Created earlier o tag id) (hs : earlier <:+ journal) : Created journal o tag id :=
  hs.subset h

/-! ## What is allowed -/

/-- What a call needs, apart from its mapping. -/
def Permitted (earlier : List Event) (o : Origin) : Call → Prop
  | .create _ (some id) => ∀ o' tag', ¬ Created earlier o' tag' id
  | .cast tag id _ => Created earlier o tag id ∧ deletions earlier id = 0
  | .delete tag id => Created earlier o tag id ∧ deletions earlier id = 0
  | _ => True

/-- What may happen after `earlier`. -/
def Allowed (earlier : List Event) : Event → Prop
  | .call o c => Resident earlier o.mapping ∧ Permitted earlier o c
  | .returned m => Resident earlier m
  | _ => True

/-- Every event was allowed when it happened. -/
def Lawful : List Event → Prop
  | [] => True
  | e :: earlier => Allowed earlier e ∧ Lawful earlier

theorem Lawful.of_suffix {earlier journal : List Event} (h : Lawful journal)
    (hs : earlier <:+ journal) : Lawful earlier := by
  induction journal with
  | nil =>
    rw [List.suffix_nil.1 hs]
    exact h
  | cons e rest ih =>
    rcases List.suffix_cons_iff.1 hs with rfl | hs
    · exact h
    · exact ih h.2 hs

theorem Lawful.allowed {later earlier : List Event} {e : Event}
    (h : Lawful (later ++ e :: earlier)) : Allowed earlier e :=
  (h.of_suffix (List.suffix_append later (e :: earlier))).1

/-- An instance is made once, by one factory and with one name. -/
theorem Lawful.created_unique {journal : List Event} (h : Lawful journal) {o o' : Origin}
    {tag tag' : String} {id : Nat} (hc : Created journal o tag id) (hc' : Created journal o' tag' id) :
    o = o' ∧ tag = tag' := by
  induction journal with
  | nil => simp [Created] at hc
  | cons e earlier ih =>
    rcases List.mem_cons.1 hc with he | hc
    · rcases List.mem_cons.1 hc' with he' | hc'
      · rw [← he] at he'
        simp only [Event.call.injEq, Call.create.injEq] at he'
        exact ⟨he'.1.symm, he'.2.1.symm⟩
      · rw [← he] at h
        exact absurd hc' (h.1.2 o' tag')
    · rcases List.mem_cons.1 hc' with he' | hc'
      · rw [← he'] at h
        exact absurd hc (h.1.2 o tag)
      · exact ih h.2 hc hc'

theorem Lawful.not_created {later earlier : List Event} {o : Origin} {tag : String} {id : Nat}
    (h : Lawful (later ++ earlier)) (he : .call o (.create tag (some id)) ∈ later) {o' : Origin}
    {tag' : String} : ¬ Created earlier o' tag' id := by
  obtain ⟨after, before, rfl⟩ := List.append_of_mem he
  rw [List.append_assoc, List.cons_append] at h
  exact fun hc => h.allowed.2 o' tag' (List.mem_append_right before hc)

/-- What was deleted had been made by a factory of the same library. -/
theorem Lawful.created_of_deleted {journal : List Event} (h : Lawful journal) {o : Origin}
    {tag : String} {id : Nat} (hd : .call o (.delete tag id) ∈ journal) : Created journal o tag id := by
  obtain ⟨later, earlier, rfl⟩ := List.append_of_mem hd
  exact h.allowed.2.1.mono ⟨later ++ [.call o (.delete tag id)], by simp⟩

theorem Lawful.created_of_deletions {journal : List Event} (h : Lawful journal) {id : Nat}
    (hpos : 0 < deletions journal id) : ∃ o tag, Created journal o tag id := by
  obtain ⟨e, he, hdel⟩ := List.countP_pos_iff.1 hpos
  match e, hdel with
  | .call o (.delete tag other), hdel =>
    have hid : other = id := by simpa [isDeletion] using hdel
    subst hid
    exact ⟨o, tag, h.created_of_deleted he⟩

/-- Nothing is deleted twice. -/
theorem Lawful.deletions_le_one {journal : List Event} (h : Lawful journal) (id : Nat) :
    deletions journal id ≤ 1 := by
  induction journal with
  | nil => simp [deletions]
  | cons e earlier ih =>
    rw [deletions_cons]
    split
    · next hdel =>
      match e, hdel, h.1 with
      | .call o (.delete tag other), hdel, hallowed =>
        have hid : other = id := by simpa [isDeletion] using hdel
        subst hid
        have hnone := hallowed.2.2
        omega
    · exact ih h.2

end PluginHost.Journal
