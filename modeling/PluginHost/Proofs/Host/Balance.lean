import Mathlib.Data.Multiset.Dedup
import PluginHost.Host.Reference
import PluginHost.Proofs.Table.Owned

/-!
# The balance of a host

A program owns things in a host: holds on mappings that it has opened and not yet given to a library,
references from its loaders to libraries, and holders of instances. A host is in balance with a program
when each of its counters is the number of owners, counted in bags: those of the program and those inside
the host, where a library holds its mapping and a live instance refers to its library.

* `Host.Balanced`: the balance, for three bags of owners.
* `Host.Balanced.releaseLibrary`, `Host.Balanced.release`, …: each operation moves one owner.
* `Host.Balanced.live_eq`: the live counts follow from what is held.
-/

namespace PluginHost

set_option autoImplicit false

open PluginHost.Table

/-- The same mapping with the same holds, known under more strings perhaps. -/
structure Mapping.Extends (m m' : Mapping) : Prop where
  file : m'.file = m.file
  image : m'.image = m.image
  holds : m'.holds = m.holds
  names : m.names <+: m'.names

theorem Mapping.Extends.refl (m : Mapping) : m.Extends m := ⟨rfl, rfl, rfl, List.prefix_refl _⟩

namespace Host

/-- A path leads to the mapping that is known under its text, or else to the mapping of its file under one
more string, or to a new one. -/
theorem locate_cases {h : Host} {p : Path} {id : Nat} {m : Mapping} (hp : h.locate p = some (id, m)) :
    h.knownAs p.text = some (id, m) ∨
      h.knownAs p.text = none ∧ ∃ file image, h.files.file? p = some ⟨file, .library image⟩ ∧
        ((∃ m₀, h.mappedFrom file = some (id, m₀) ∧ m = { m₀ with names := m₀.names ++ [p.text] }) ∨
          (h.mappedFrom file = none ∧ id = h.fresh ∧ m = ⟨file, image, [p.text], 0⟩)) := by
  unfold locate at hp
  split at hp
  · split at hp
    · next hknown => exact .inl (hknown.trans hp)
    · next hknown =>
      refine .inr ⟨hknown, ?_⟩
      split at hp
      · next file image hfile =>
        refine ⟨file, image, hfile, ?_⟩
        split at hp
        · next m₀ hmapped =>
          obtain ⟨rfl, rfl⟩ := Prod.mk.inj (Option.some.inj hp)
          exact .inl ⟨m₀, hmapped, rfl⟩
        · next hmapped =>
          obtain ⟨rfl, rfl⟩ := Prod.mk.inj (Option.some.inj hp)
          exact .inr ⟨hmapped, rfl, rfl⟩
      · simp at hp
  · simp at hp

/-! ## The balance -/

def libraries (h : Host) : Multiset Library := h.records.bag.map Record.library

/-- The libraries of the live instances, each once for every instance. -/
def makers (h : Host) : Multiset Library := h.instances.bag.map fun l => l.body.library

def home (l : Library) : Nat := l.origin.mapping

/-- Every counter is the number of owners, and everything that is owned is there as its owner knows
it. -/
structure Balanced (h : Host) (opened : Multiset Nat) (referred : Multiset Library)
    (held : Multiset Instance) : Prop where
  mappings : h.mappings.Counted Mapping.holds (opened + h.libraries.map home)
  records : h.records.Owned Record.references Record.library Library.id (referred + h.makers)
  instances : h.instances.Owned Living.uses Living.body Instance.id held
  live : ∀ id r, h.records.find? id = some r → r.live = (h.makers.map Library.id).count id
  fresh : h.mappings.Below h.fresh ∧ h.records.Below h.fresh ∧ h.instances.Below h.fresh

theorem balanced_start (files : FileTree) : (start files).Balanced 0 0 0 where
  mappings := Counted.nil _
  records := Owned.nil _ _ _
  instances := Owned.nil _ _ _
  live := by intro id r hr; simp [start] at hr
  fresh := ⟨Below.nil _, Below.nil _, Below.nil _⟩

namespace Balanced

variable {h : Host} {opened : Multiset Nat} {referred : Multiset Library} {held : Multiset Instance}
  {l : Library} {x : Instance} {m id : Nat}

/-! ## What is owned is there -/

theorem mapping_lt_fresh (hb : h.Balanced opened referred held) {v : Mapping}
    (hv : h.mappings.find? id = some v) : id < h.fresh := hb.fresh.1.lt hv

theorem record_lt_fresh (hb : h.Balanced opened referred held) {r : Record}
    (hr : h.records.find? id = some r) : id < h.fresh := hb.fresh.2.1.lt hr

theorem living_lt_fresh (hb : h.Balanced opened referred held) {v : Living}
    (hv : h.instances.find? id = some v) : id < h.fresh := hb.fresh.2.2.lt hv

/-- The makers of instances are the libraries of what is held. -/
theorem maker_of_held (hb : h.Balanced opened referred held) (hx : x ∈ held) :
    x.library ∈ h.makers := by
  obtain ⟨v, hv, rfl⟩ := hb.instances.kept x hx
  exact Multiset.mem_map.2 ⟨v, mem_bag.2 (mem_values_of_find? hv), rfl⟩

/-- A library is among those something refers to exactly when a loader or an instance refers to it. -/
theorem mem_libraries (hb : h.Balanced opened referred held) :
    l ∈ h.libraries ↔ l ∈ referred + h.makers := hb.records.mem_bodies

theorem libraries_nodup (hb : h.Balanced opened referred held) : h.libraries.Nodup :=
  hb.records.nodup_bodies

/-- The holds on a mapping are those of its libraries and of what was opened. -/
theorem holds_eq (hb : h.Balanced opened referred held) (m : Nat) :
    h.mappings.counter Mapping.holds m =
      opened.count m + (h.libraries.filter fun l => m = home l).card := by
  rw [hb.mappings.counts m, Multiset.count_add, Multiset.count_map]

theorem resident_of_library (hb : h.Balanced opened referred held) (hl : l ∈ h.libraries) :
    ∃ v, h.mappings.find? (home l) = some v :=
  hb.mappings.exists_of_mem
    (Multiset.mem_add.2 (.inr (Multiset.mem_map_of_mem home hl)))

theorem resident_of_referred (hb : h.Balanced opened referred held) (hl : l ∈ referred) :
    ∃ v, h.mappings.find? (home l) = some v :=
  hb.resident_of_library (hb.mem_libraries.2 (Multiset.mem_add.2 (.inl hl)))

theorem resident_of_held (hb : h.Balanced opened referred held) (hx : x ∈ held) :
    ∃ v, h.mappings.find? (home x.library) = some v :=
  hb.resident_of_library (hb.mem_libraries.2 (Multiset.mem_add.2 (.inr (hb.maker_of_held hx))))

theorem resident_of_opened (hb : h.Balanced (m ::ₘ opened) referred held) :
    ∃ v, h.mappings.find? m = some v :=
  hb.mappings.exists_of_mem (by simp)

/-! ## The journal and the files -/

theorem log (hb : h.Balanced opened referred held) (e : Event) :
    (h.log e).Balanced opened referred held :=
  ⟨hb.mappings, hb.records, hb.instances, hb.live, hb.fresh⟩

theorem withFiles (hb : h.Balanced opened referred held) (files : FileTree) :
    Balanced { h with files := files } opened referred held :=
  ⟨hb.mappings, hb.records, hb.instances, hb.live, hb.fresh⟩

/-! ## Holds on mappings -/

/-- The mapping that an opening leads to is one that is there, known under more strings perhaps, or a new
one without holds. -/
theorem mapping_of_locate (hb : h.Balanced opened referred held) {p : Path} {v : Mapping}
    (hp : h.locate p = some (id, v)) :
    (∃ v₀, h.mappings.find? id = some v₀ ∧ v₀.Extends v) ∨ (id = h.fresh ∧ v.holds = 0) := by
  rcases locate_cases hp with hknown | ⟨-, file, image, -, ⟨v₀, hmapped, rfl⟩ | ⟨-, rfl, rfl⟩⟩
  · exact .inl ⟨v, find?_of_mem hb.mappings.distinct (List.mem_of_find?_eq_some hknown), .refl v⟩
  · have hv₀ := find?_of_mem hb.mappings.distinct (List.mem_of_find?_eq_some hmapped)
    exact .inl ⟨v₀, hv₀, rfl, rfl, rfl, List.prefix_append _ _⟩
  · exact .inr ⟨rfl, rfl⟩

theorem holds_of_locate (hb : h.Balanced opened referred held) {p : Path} {v : Mapping}
    (hp : h.locate p = some (id, v)) : v.holds = h.mappings.counter Mapping.holds id := by
  rcases hb.mapping_of_locate hp with ⟨v₀, hv₀, hextends⟩ | ⟨rfl, hholds⟩
  · rw [hextends.holds, counter_of_find? hv₀]
  · simp [hholds, counter, hb.fresh.1.self]

theorem hold (hb : h.Balanced opened referred held) {p : Path} {v : Mapping}
    (hp : h.locate p = some (id, v)) : (h.hold id v).Balanced (id ::ₘ opened) referred held where
  mappings := by
    have hcount := hb.mappings.put_cons (k := id) (v := { v with holds := v.holds + 1 })
      (congrArg (· + 1) (hb.holds_of_locate hp))
    rw [Multiset.cons_add]
    exact hcount
  records := hb.records
  instances := hb.instances
  live := hb.live
  fresh := by
    have hle : h.fresh ≤ max h.fresh (id + 1) := Nat.le_max_left _ _
    have hlt : id < max h.fresh (id + 1) := Nat.le_max_right _ _
    exact ⟨(hb.fresh.1.mono hle).put hlt _, hb.fresh.2.1.mono hle, hb.fresh.2.2.mono hle⟩

theorem closeMapping (hb : h.Balanced (m ::ₘ opened) referred held) :
    (h.closeMapping m).Balanced opened referred held := by
  obtain ⟨v, hv⟩ := hb.resident_of_opened
  have hm := hb.mappings
  rw [Multiset.cons_add] at hm
  have hlt := hb.mapping_lt_fresh hv
  simp only [Host.closeMapping, hv]
  refine Balanced.log ?_ _
  by_cases hlast : v.holds ≤ 1
  · simp only [hlast, if_true]
    exact ⟨hm.erase_last hv hlast, hb.records, hb.instances, hb.live, hb.fresh.1.erase m, hb.fresh.2⟩
  · simp only [hlast, if_false]
    exact ⟨hm.put_pred hv hlast rfl, hb.records, hb.instances, hb.live, hb.fresh.1.put hlt _,
      hb.fresh.2⟩

/-! ## References to libraries -/

/-- A record is put whose number of live instances is that of its makers, and only its makers change. -/
theorem live_put {makers' : Multiset Library} (hb : h.Balanced opened referred held) {r : Record}
    (hk : r.live = (makers'.map Library.id).count id)
    (hne : ∀ j, j ≠ id → (makers'.map Library.id).count j = (h.makers.map Library.id).count j) :
    ∀ j w, find? (put h.records id r) j = some w → w.live = (makers'.map Library.id).count j := by
  intro j w hw
  by_cases hj : j = id
  · subst hj
    rw [find?_put_self, Option.some.injEq] at hw
    rw [← hw, hk]
  · rw [find?_put_of_ne _ _ hj] at hw
    rw [hb.live j w hw, hne j hj]

/-- The record of a library changes its number of references, and the owners change with it. -/
theorem put_record {referred' : Multiset Library} (hb : h.Balanced opened referred held) {r r' : Record}
    (hr : h.records.find? id = some r) (hlib : r'.library = r.library) (hlive : r'.live = r.live)
    (howned : (put h.records id r').Owned Record.references Record.library Library.id
      (referred' + h.makers)) :
    Balanced { h with records := put h.records id r' } opened referred' held where
  mappings := by
    have hlibs : libraries { h with records := put h.records id r' } = h.libraries :=
      map_bag_put hb.records.distinct Record.library hr hlib
    rw [hlibs]
    exact hb.mappings
  records := howned
  instances := hb.instances
  live := hb.live_put (hlive.trans (hb.live id r hr)) fun _ _ => rfl
  fresh := ⟨hb.fresh.1, hb.fresh.2.1.put (hb.record_lt_fresh hr) r', hb.fresh.2.2⟩

theorem retainLibrary (hb : h.Balanced opened referred held) (hl : l ∈ referred) :
    (h.retainLibrary l).Balanced opened (l ::ₘ referred) held := by
  have hmem : l ∈ referred + h.makers := Multiset.mem_add.2 (.inl hl)
  obtain ⟨r, hr, hlib⟩ := hb.records.kept l hmem
  simp only [Host.retainLibrary, hr]
  refine hb.put_record hr rfl rfl ?_
  rw [Multiset.cons_add]
  exact hb.records.put_cons hmem hr rfl hlib

/-- The last reference to a library goes: its record goes, and its hold on the mapping is left. -/
theorem erase_record (hb : h.Balanced opened (l ::ₘ referred) held) {r : Record}
    (hr : h.records.find? l.id = some r) (hlib : r.library = l) (hlast : r.references ≤ 1) :
    Balanced { h with records := erase h.records l.id } (home l ::ₘ opened) referred held where
  mappings := by
    have hlibs : h.libraries = l ::ₘ libraries { h with records := erase h.records l.id } := by
      rw [libraries, bag_of_find? hb.records.distinct hr, Multiset.map_cons, hlib]
      rfl
    have hm := hb.mappings
    rw [hlibs, Multiset.map_cons, Multiset.add_cons, ← Multiset.cons_add] at hm
    exact hm
  records := by
    have hrecords := hb.records
    rw [Multiset.cons_add] at hrecords
    exact hrecords.erase_last hr hlast
  instances := hb.instances
  live := by
    intro j w hw
    rw [find?_erase] at hw
    split at hw
    · simp at hw
    · exact hb.live j w hw
  fresh := ⟨hb.fresh.1, hb.fresh.2.1.erase l.id, hb.fresh.2.2⟩

theorem releaseLibrary (hb : h.Balanced opened (l ::ₘ referred) held) :
    (h.releaseLibrary l).Balanced opened referred held := by
  obtain ⟨r, hr, hlib⟩ := hb.records.kept l (by simp)
  simp only [Host.releaseLibrary, hr]
  by_cases hlast : r.references ≤ 1
  · simp only [hlast, if_true]
    exact ((hb.erase_record hr hlib hlast).log _).closeMapping
  · simp only [hlast, if_false]
    have hrecords := hb.records
    rw [Multiset.cons_add] at hrecords
    exact hb.put_record hr rfl rfl (hrecords.put_pred hr hlast rfl hlib)

theorem newLibrary {o : Origin} (hb : h.Balanced (o.mapping ::ₘ opened) referred held) (path : Path)
    (plugins : List String) :
    (h.newLibrary path plugins o).2.Balanced opened ((h.newLibrary path plugins o).1 ::ₘ referred)
      held := by
  have hnone := hb.fresh.2.1.self
  have hle : h.fresh ≤ h.fresh + 1 := Nat.le_succ _
  simp only [Host.newLibrary]
  refine ⟨?_, ?_, hb.instances, ?_, ?_⟩
  · have hm := hb.mappings
    simp only [libraries] at hm ⊢
    rw [bag_put_of_find?_eq_none hb.records.distinct _ hnone, Multiset.map_cons,
      Multiset.map_cons, Multiset.add_cons, ← Multiset.cons_add]
    exact hm
  · rw [Multiset.cons_add]
    have hnew : h.records.find? (Library.mk h.fresh path plugins o).id = none := hnone
    exact hb.records.put_new hnew rfl rfl
  · refine hb.live_put ?_ fun _ _ => rfl
    refine (Multiset.count_eq_zero.2 fun hmem => ?_).symm
    obtain ⟨l', hl', hid⟩ := Multiset.mem_map.1 hmem
    obtain ⟨w, hw, -⟩ := hb.records.kept l' (Multiset.mem_add.2 (.inr hl'))
    rw [hid, hnone] at hw
    simp at hw
  · exact ⟨hb.fresh.1.mono hle, (hb.fresh.2.1.mono hle).put (Nat.lt_succ_self _) _,
      hb.fresh.2.2.mono hle⟩

/-! ## Holders of instances -/

theorem put_living {held' : Multiset Instance} (hb : h.Balanced opened referred held) {v v' : Living}
    (hv : h.instances.find? id = some v) (hbody : v'.body = v.body)
    (howned : (put h.instances id v').Owned Living.uses Living.body Instance.id held') :
    Balanced { h with instances := put h.instances id v' } opened referred held' := by
  have hmakers : makers { h with instances := put h.instances id v' } = h.makers :=
    map_bag_put hb.instances.distinct (fun w : Living => w.body.library) hv (by rw [hbody])
  refine ⟨hb.mappings, ?_, howned, ?_, ?_⟩
  · rw [hmakers]
    exact hb.records
  · rw [hmakers]
    exact hb.live
  · exact ⟨hb.fresh.1, hb.fresh.2.1, hb.fresh.2.2.put (hb.living_lt_fresh hv) v'⟩

theorem retain (hb : h.Balanced opened referred held) (hx : x ∈ held) :
    (h.retain x).Balanced opened referred (x ::ₘ held) := by
  obtain ⟨v, hv, hbody⟩ := hb.instances.kept x hx
  simp only [Host.retain, hv]
  exact hb.put_living hv rfl (hb.instances.put_cons hx hv rfl hbody)

theorem use (hb : h.Balanced opened referred held) (x : Instance) (p : Pointer) (arg : Argument) :
    (h.use x p arg).2.Balanced opened referred held := by
  unfold Host.use
  split
  · next i v _ hv =>
    exact hb.put_living hv rfl (hb.instances.put_same hv rfl rfl)
  · exact hb

/-- A new instance takes over a reference to its library. -/
theorem adopt (hb : h.Balanced opened (x.library ::ₘ referred) held) (hid : h.fresh = x.id)
    (state : Specimen) {r : Record} (hr : h.records.find? x.library.id = some r) :
    Balanced
      { h with
        records := put h.records x.library.id { r with live := r.live + 1 }
        instances := put h.instances x.id ⟨x, 1, state⟩
        fresh := h.fresh + 1 }
      opened referred (x ::ₘ held) := by
  have hnone := hb.fresh.2.2.self
  rw [hid] at hnone
  have hlibs : (bag (put h.records x.library.id { r with live := r.live + 1 })).map Record.library =
      h.libraries := map_bag_put hb.records.distinct Record.library hr rfl
  have hmakers : (bag (put h.instances x.id ⟨x, 1, state⟩)).map (fun w => w.body.library) =
      x.library ::ₘ h.makers := by
    rw [bag_put_of_find?_eq_none hb.instances.distinct _ hnone, Multiset.map_cons]
    rfl
  refine ⟨?_, ?_, hb.instances.put_new hnone rfl rfl, ?_, ?_⟩
  · simp only [libraries] at hlibs ⊢
    rw [hlibs]
    exact hb.mappings
  · have howners : referred + x.library ::ₘ h.makers = (x.library ::ₘ referred) + h.makers := by
      rw [Multiset.add_cons, Multiset.cons_add]
    simp only [makers] at hmakers howners ⊢
    rw [hmakers, howners]
    exact hb.records.put_same hr rfl rfl
  · simp only [makers] at hmakers ⊢
    rw [hmakers]
    refine hb.live_put ?_ fun j hj => ?_
    · rw [Multiset.map_cons, Multiset.count_cons_self, hb.live _ r hr]
      rfl
    · rw [Multiset.map_cons, Multiset.count_cons_of_ne hj]
      rfl
  · have hle : h.fresh ≤ h.fresh + 1 := Nat.le_succ _
    exact ⟨hb.fresh.1.mono hle, (hb.fresh.2.1.put (hb.record_lt_fresh hr) _).mono hle,
      (hb.fresh.2.2.mono hle).put (hid ▸ Nat.lt_succ_self _) _⟩

/-- The last holder of an instance goes, and leaves the reference of the instance to its library. -/
theorem orphan (hb : h.Balanced opened referred (x ::ₘ held)) {v : Living} {r : Record}
    (hv : h.instances.find? x.id = some v) (hlast : v.uses ≤ 1)
    (hr : h.records.find? x.library.id = some r) :
    Balanced
      { h with
        records := put h.records x.library.id { r with live := r.live - 1 }
        instances := erase h.instances x.id }
      opened (x.library ::ₘ referred) held := by
  have hbody : v.body = x := hb.instances.body_eq (Multiset.mem_cons_self x held) hv
  have hlibs : (bag (put h.records x.library.id { r with live := r.live - 1 })).map Record.library =
      h.libraries := map_bag_put hb.records.distinct Record.library hr rfl
  have hmakers : h.makers =
      x.library ::ₘ (bag (erase h.instances x.id)).map fun w => w.body.library := by
    rw [makers, bag_of_find? hb.instances.distinct hv, Multiset.map_cons, hbody]
  refine ⟨?_, ?_, hb.instances.erase_last hv hlast, ?_, ?_⟩
  · simp only [libraries] at hlibs ⊢
    rw [hlibs]
    exact hb.mappings
  · have hrecords := hb.records
    rw [hmakers, Multiset.add_cons, ← Multiset.cons_add] at hrecords
    exact hrecords.put_same hr rfl rfl
  · refine hb.live_put ?_ fun j hj => ?_
    · rw [hb.live _ r hr, hmakers, Multiset.map_cons, Multiset.count_cons_self]
      rfl
    · rw [hmakers, Multiset.map_cons, Multiset.count_cons_of_ne hj]
      rfl
  · exact ⟨hb.fresh.1, hb.fresh.2.1.put (hb.record_lt_fresh hr) _, hb.fresh.2.2.erase x.id⟩

/-! ## Live instances -/

/-- The instances that live are those that are held, each once. -/
theorem makers_eq (hb : h.Balanced opened referred held) :
    h.makers = held.dedup.map Instance.library := by
  have hbodies : h.instances.bag.map Living.body = held.dedup := by
    refine (Multiset.Nodup.ext hb.instances.nodup_bodies (Multiset.nodup_dedup _)).2 fun x => ?_
    rw [hb.instances.mem_bodies, Multiset.mem_dedup]
  rw [← hbodies, Multiset.map_map]
  rfl

/-- The live count of a library is the number of its instances that are held, each counted once. -/
theorem live_eq (hb : h.Balanced opened referred held) (l : Library) :
    h.live l = (held.dedup.map fun x => x.library.id).count l.id := by
  have hmap : (held.dedup.map fun x => x.library.id) = h.makers.map Library.id := by
    rw [hb.makers_eq, Multiset.map_map]
    rfl
  rw [hmap]
  unfold Host.live
  split
  · next hnone =>
    refine (Multiset.count_eq_zero.2 fun hmem => ?_).symm
    obtain ⟨l', hl', hid⟩ := Multiset.mem_map.1 hmem
    obtain ⟨r, hr, -⟩ := hb.records.kept l' (Multiset.mem_add.2 (.inr hl'))
    rw [hid, hnone] at hr
    cases hr
  · next r hr => exact hb.live l.id r hr

end Balanced

end Host

end PluginHost
