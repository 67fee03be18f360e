import PluginHost.Proofs.Image.Offers

/-!
# What names are used for

In the tables of an image a name stands for an interface: the one that the cast function beside it looks
for, or the one that the instances of an older library are capabilities for. What a host keeps of an image,
it keeps of these uses.

* `Image.uses`: the names in the tables of an image, each with what it stands for.
* `Image.Offers.use_of_caster`: a plugin that is offered reaches what its image uses a spelling of the name
  for.
-/

namespace PluginHost

set_option autoImplicit false

/-! ## Maps from names -/

namespace Ordered

variable {ν : Type}

theorem mem_put {k : String} {v : ν} {pairs : List (String × ν)} {e : String × ν}
    (he : e ∈ put k v pairs) : e = (k, v) ∨ e ∈ pairs := by
  induction pairs with
  | nil => exact .inl (List.mem_singleton.1 he)
  | cons pair rest ih =>
    obtain ⟨k', v'⟩ := pair
    unfold put at he
    split at he
    · exact List.mem_cons.1 he
    · split at he
      · next heq =>
        rcases List.mem_cons.1 he with he | he
        · exact .inl (heq ▸ he)
        · exact .inr (List.mem_cons_of_mem _ he)
      · rcases List.mem_cons.1 he with he | he
        · exact .inr (he ▸ List.mem_cons_self)
        · rcases ih he with he | he
          · exact .inl he
          · exact .inr (List.mem_cons_of_mem _ he)

theorem mem_foldl_put {pairs acc : List (String × ν)} {e : String × ν}
    (he : e ∈ pairs.foldl (fun acc p => put p.1 p.2 acc) acc) : e ∈ acc ∨ e ∈ pairs := by
  induction pairs generalizing acc with
  | nil => exact .inl he
  | cons pair rest ih =>
    rcases ih he with he | he
    · rcases mem_put he with he | he
      · exact .inr (he ▸ List.mem_cons_self)
      · exact .inl he
    · exact .inr (List.mem_cons_of_mem _ he)

theorem mem_of_mem_putAll {pairs : List (String × ν)} {e : String × ν} (he : e ∈ putAll pairs) :
    e ∈ pairs := by
  rcases mem_foldl_put he with he | he
  · simp at he
  · exact he

theorem mem_of_find? {k : String} {v : ν} {pairs : List (String × ν)} (h : find? k pairs = some v) :
    (k, v) ∈ pairs := by
  induction pairs with
  | nil => simp [find?] at h
  | cons pair rest ih =>
    obtain ⟨k', v'⟩ := pair
    unfold find? at h
    split at h
    · next heq => simp [heq, Option.some.inj h]
    · exact List.mem_cons_of_mem _ (ih h)

end Ordered

/-! ## Uses -/

/-- A name and the interface that it stands for; `none` when what it stands for implements none. -/
abbrev Use := String × Option Interface

def InterfaceEntry.use? (e : InterfaceEntry) : Option Use :=
  match PluginInfo.readName e.name, e.cast with
  | some name, some i => some (name, some i)
  | _, _ => none

def Descriptor.uses (d : Descriptor) : List Use := (d.interfaces.getD []).filterMap InterfaceEntry.use?

/-- The interface that an instance itself is a capability for. -/
def Product.bare : Product → Option Interface
  | .capability i => some i
  | _ => none

/-- The interface name of an older library stands for the instances, if there are any. -/
def LegacyDescriptor.uses (d : LegacyDescriptor) : List Use :=
  match PluginInfo.readName d.interface, d.factory with
  | some name, some factory =>
    if factory.product = .nothing then [] else [(name, factory.product.bare)]
  | _, _ => []

def Image.uses (image : Image) : List Use :=
  (image.multi.elim [] fun t => t.rows.flatMap Descriptor.uses) ++
    image.single.elim [] fun e => e.descriptor.uses

/-- The interface of what a caster of the plugin leads to. -/
def PluginInfo.goal (info : PluginInfo) : Caster → Option Interface
  | .cast i => some i
  | .identity => info.factory.product.bare

/-! ## What is read of them -/

theorem use_of_ofDescriptor {d : Descriptor} {info : PluginInfo}
    (h : (PluginInfo.ofDescriptor d).2 = some info) {name : String} {c : Caster}
    (hc : (name, c) ∈ info.interfaces) : (name, info.goal c) ∈ d.uses := by
  unfold PluginInfo.ofDescriptor at h
  split at h
  · simp at h
  · split at h
    · rw [← Option.some.inj h] at hc
      obtain ⟨e, he, hread⟩ := List.mem_filterMap.1 (Ordered.mem_of_mem_putAll hc)
      unfold PluginInfo.readEntry at hread
      split at hread
      · next i hname hcast =>
        obtain ⟨rfl, rfl⟩ := Prod.mk.inj (Option.some.inj hread)
        refine List.mem_filterMap.2 ⟨e, he, ?_⟩
        simp [InterfaceEntry.use?, hname, hcast, PluginInfo.goal]
      · simp at hread
    · simp at h

theorem use_of_ofLegacy {d : LegacyDescriptor} {info : PluginInfo}
    (h : (PluginInfo.ofLegacy d).2 = some info) (hmade : info.factory.product ≠ .nothing)
    {name : String} {c : Caster} (hc : (name, c) ∈ info.interfaces) : (name, info.goal c) ∈ d.uses := by
  unfold PluginInfo.ofLegacy at h
  split at h
  · simp at h
  · split at h
    · simp at h
    · next factory hfactory =>
      have hinfo := Option.some.inj h
      subst hinfo
      obtain ⟨i, hi, heq⟩ := List.mem_map.1 hc
      obtain ⟨rfl, rfl⟩ := Prod.mk.inj heq
      have hname := Option.mem_toList.1 hi
      simp [LegacyDescriptor.uses, hname, hfactory, PluginInfo.goal, if_neg hmade]

/-! ## The rows of a table -/

theorem response_of_mem_callsFrom {respond : Nat → Response} {fuel index : Nat} {call : Nat × Response}
    (h : call ∈ callsFrom respond fuel index) : call.2 = respond call.1 := by
  induction fuel generalizing index with
  | zero =>
    rw [callsFrom, List.mem_singleton] at h
    rw [h]
  | succ fuel ih =>
    rw [callsFrom] at h
    rcases List.mem_cons.1 h with rfl | h
    · rfl
    · split at h
      · simp at h
      · exact ih h

theorem DescriptorTable.row_of_respond {t : DescriptorTable} {index size : Nat}
    (h : (t.respond index size).remaining ≠ 0) : (t.respond index size).descriptor ∈ t.rows := by
  unfold respond at h ⊢
  split at h
  · simp at h
  · next hgoes =>
    rw [if_neg hgoes]
    simp only at h ⊢
    cases hd : (Export.fill t.rows true index size).2 with
    | none => exact absurd ((Export.fill_fst_eq_zero_iff _ _ _ _).2 hd) h
    | some d =>
      unfold Export.fill at hd
      split at hd
      · split at hd
        · next row hrow =>
          rw [← Option.some.inj hd]
          exact List.mem_of_getElem? hrow
        · simp at hd
      · simp at hd

theorem row_of_readCurrent {t : DescriptorTable} {info : PluginInfo}
    (h : info ∈ (readCurrent t.describe).2) :
    ∃ d ∈ t.rows, (PluginInfo.ofDescriptor d).2 = some info := by
  obtain ⟨call, hmem, hread⟩ := List.mem_filterMap.1 h
  have hresponse := response_of_mem_callsFrom hmem
  unfold readCall at hread
  split at hread
  · simp at hread
  · next hmore =>
    rw [hresponse] at hmore
    refine ⟨call.2.descriptor, ?_, ?_⟩
    · rw [hresponse]
      exact DescriptorTable.row_of_respond hmore
    · split at hread
      · next heq => rw [heq, ← hread]
      · simp at hread

/-- A legacy function gives its one descriptor, whether it fills it in or returns it. -/
theorem LegacyExport.descriptor_of_describe {e : LegacyExport} {d : LegacyDescriptor} {size : Nat}
    (hd : e.describe.fill size = some d ∨ e.describe.value = d) : d = e.descriptor := by
  rcases hd with hd | hd
  · simp only [describe] at hd
    split at hd
    · simp at hd
    · exact (Option.some.inj hd).symm
  · exact hd.symm

/-! ## What is offered -/

/-- What a plugin that an image offers reaches by a name, the image uses a spelling of the name for. -/
theorem Image.Offers.use_of_caster {image : Image} {info : PluginInfo} (h : image.Offers info)
    (hmade : info.factory.product ≠ .nothing) {interface : String} {c : Caster}
    (hc : info.caster interface = some c) :
    ∃ name, (name, info.goal c) ∈ image.uses ∧ Name.normalize name = Name.normalize interface := by
  obtain ⟨n, hn, read, hread, rfl⟩ := h
  have hpair := Ordered.mem_of_mem_putAll (Ordered.mem_of_find? hc)
  obtain ⟨⟨name, c'⟩, hname, heq⟩ := List.mem_map.1 hpair
  obtain ⟨hsame, rfl⟩ := Prod.mk.inj heq
  refine ⟨name, ?_, hsame⟩
  have hgoal : read.normalized.goal c' = read.goal c' := rfl
  rw [hgoal]
  rcases infos_of_negotiate hn with ⟨-, d, hd, hinfos⟩ | ⟨-, shape, s, d, hs, hd, hinfos⟩
  · obtain ⟨t, ht, rfl⟩ := Option.map_eq_some_iff.1 hd
    rw [hinfos] at hread
    obtain ⟨row, hrow, hof⟩ := row_of_readCurrent hread
    refine List.mem_append_left _ ?_
    rw [ht]
    exact List.mem_flatMap.2 ⟨row, hrow, use_of_ofDescriptor hof hname⟩
  · obtain ⟨e, he, rfl⟩ := Option.map_eq_some_iff.1 hs
    rw [hinfos] at hread
    have hof := Option.mem_toList.1 hread
    rw [e.descriptor_of_describe hd] at hof
    refine List.mem_append_right _ ?_
    rw [he]
    exact use_of_ofLegacy hof hmade hname

end PluginHost
