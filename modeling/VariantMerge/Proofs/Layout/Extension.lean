import VariantMerge.Proofs.Layout.Soundness

/-!
# Later variants extend a layout

The layout of some variants is the beginning of every layout that starts with them. Placing one
more variant adds users to slots, all of them under its own name, and slots at the end
(`SlotLayout.addVariant_extends`), so the layout of more variants extends that of the first ones
(`SlotLayout.ofVariants_extends`). What is read from the extended layout for a variant that was
there before is what was read before: the same slots, with the same names and types, and the same
users among the variants that were there (`SlotLayout.ofVariants_append_stable`).
-/

namespace VariantMerge

namespace SlotLayout

/-- A layout that goes on from another one: slots, placements and users are only added at the end,
and users only for variants that were not there. -/
structure Extends (before after : SlotLayout) : Prop where
  grows : Grows before.slots after.slots
  placements : before.placements <+: after.placements
  users : ∀ position, ∃ added,
    usersAt after.slots position = usersAt before.slots position ++ added ∧
      ∀ user ∈ added, user.1 ∉ before.placements.map Prod.fst

theorem Extends.refl (layout : SlotLayout) : Extends layout layout where
  grows := Grows.refl _
  placements := List.prefix_refl _
  users := fun _ => ⟨[], (List.append_nil _).symm, fun _ member => absurd member List.not_mem_nil⟩

theorem Extends.trans {first second third : SlotLayout} (early : Extends first second)
    (late : Extends second third) : Extends first third where
  grows := early.grows.trans late.grows
  placements := early.placements.trans late.placements
  users := by
    intro position
    obtain ⟨new, here, others⟩ := early.users position
    obtain ⟨newer, later, strangers⟩ := late.users position
    refine ⟨new ++ newer, by rw [later, here, List.append_assoc], ?_⟩
    intro user member known
    obtain added | added := List.mem_append.mp member
    · exact others user added known
    · exact strangers user added ((early.placements.map Prod.fst).subset known)

/-! ## One more variant -/

/-- The fields of a variant add users under its own name only. -/
theorem Placing.Run.users_append {slots : List Slot} {variant : String}
    {fields : List VariantField} {placing : Placing} (run : Run slots variant fields placing)
    (position : Nat) :
    ∃ added, usersAt placing.slots position = usersAt slots position ++ added ∧
      ∀ user ∈ added, user.1 = variant := by
  induction run with
  | start => exact ⟨[], (List.append_nil _).symm, fun _ member => absurd member List.not_mem_nil⟩
  | @step fields field placing after index _ step ih =>
      obtain ⟨added, here, own⟩ := ih
      refine ⟨added ++ if position = index then [(variant, field.name)] else [], ?_, ?_⟩
      · rw [step.users, here, List.append_assoc]
      · intro user member
        obtain earlier | new := List.mem_append.mp member
        · exact own user earlier
        · split at new
          · rw [List.mem_singleton.mp new]
          · exact absurd new List.not_mem_nil

/-- **One more variant extends a layout.** -/
theorem addVariant_extends {layout after : SlotLayout} {variant : Variant}
    (indexed : Indexed layout.slots) (added : layout.addVariant variant = .ok after) :
    Extends layout after := by
  obtain ⟨fresh, rfl⟩ := addVariant_eq_ok_iff.mp added
  refine ⟨(placeAll_invariant indexed variant).grows, List.prefix_append _ _, ?_⟩
  intro position
  obtain ⟨users, here, own⟩ := (placeAll_run indexed variant).users_append position
  exact ⟨users, here, fun user member => own user member ▸ fresh⟩

/-- **More variants extend a layout.** If variants have a layout, then so have the first ones of
them, and the layout of all extends it. -/
theorem ofVariants_extends {first more : List Variant} {longer : SlotLayout}
    (built : ofVariants (first ++ more) = .ok longer) :
    ∃ layout, ofVariants first = .ok layout ∧ Extends layout longer := by
  induction more using List.reverseRecOn generalizing longer with
  | nil => exact ⟨longer, by rwa [List.append_nil] at built, Extends.refl longer⟩
  | append_singleton more variant ih =>
      rw [← List.append_assoc] at built
      obtain ⟨middle, earlier, added⟩ := ofVariants_concat_eq_ok_iff.mp built
      obtain ⟨layout, start, extended⟩ := ih earlier
      have indexed := (ofVariants_invariant earlier).indexed
      exact ⟨layout, start, extended.trans (addVariant_extends indexed added)⟩

/-! ## Reading an extended layout -/

namespace Extends

variable {before after : SlotLayout}

/-- A slot that was there keeps its position and type, and gets users of new variants only. -/
theorem exists_slot (extended : Extends before after) {position : Nat} {slot : Slot}
    (found : before.slots[position]? = some slot) :
    ∃ later, after.slots[position]? = some later ∧ later.core = slot.core ∧
      ∃ added, later.users = slot.users ++ added ∧
        ∀ user ∈ added, user.1 ∉ before.placements.map Prod.fst := by
  have inside : position < (before.slots.map Slot.core).length := by
    rw [List.length_map]
    exact (List.getElem?_eq_some_iff.mp found).1
  have kept := List.prefix_iff_getElem?.mp extended.grows position inside
  rw [List.getElem_map, List.getElem?_map] at kept
  obtain ⟨later, present, same⟩ := Option.map_eq_some_iff.mp kept
  obtain ⟨added, users, strangers⟩ := extended.users position
  rw [usersAt, usersAt, present, found] at users
  rw [(List.getElem?_eq_some_iff.mp found).2] at same
  exact ⟨later, present, same, added, users, strangers⟩

/-- Where the fields of a variant went stays as it is. -/
theorem indicesOf_eq (extended : Extends before after) {variant : String}
    (known : variant ∈ before.placements.map Prod.fst) :
    after.indicesOf variant = before.indicesOf variant := by
  obtain ⟨rest, continued⟩ := extended.placements
  obtain ⟨placed, found⟩ := Option.isSome_iff_exists.mp (lookup_isSome_iff_mem.mpr known)
  rw [indicesOf, indicesOf, ← continued, List.lookup_append, found, Option.some_or]

end Extends

/-- Every field of a variant is found in a slot, under whatever names its fields have. -/
theorem Invariant.exists_slotFor {variants : List Variant} {layout : SlotLayout}
    (valid : Invariant variants layout) {variant : Variant} (member : variant ∈ variants)
    {field : VariantField} (declared : field ∈ variant.fields) :
    ∃ index slot, (layout.indicesOf variant.name).lookup field.name = some index ∧
      layout.slots[index]? = some slot := by
  obtain ⟨placed, present, fits⟩ := valid.exists_placed member
  obtain ⟨fromPlaced, keepsNames⟩ :
      (∀ entry ∈ layout.indicesOf variant.name, entry ∈ placed) ∧
        ∀ name ∈ placed.map Prod.fst, name ∈ (layout.indicesOf variant.name).map Prod.fst := by
    rw [indicesOf, (lookup_eq_some_iff_mem valid.placements_distinct).mpr present]
    exact foldl_assign_mem placed
  have named : field.name ∈ (layout.indicesOf variant.name).map Prod.fst :=
    keepsNames _ (fits.names ▸ List.mem_map_of_mem declared)
  obtain ⟨index, found⟩ := Option.isSome_iff_exists.mp (lookup_isSome_iff_mem.mpr named)
  have inside := fits.lt_length index
    (List.mem_map_of_mem (fromPlaced _ (lookup_mem found)))
  exact ⟨index, layout.slots[index], found, List.getElem?_eq_getElem inside⟩

/-- **Layouts are stable.** If the layout of some variants goes on with more of them, the first ones
have a layout of their own, and it is the beginning of the longer one: each slot keeps its index,
name and type and, among the first variants, its users, and each field of these variants is stored
in the slot with the same index. -/
theorem ofVariants_append_stable {first more : List Variant} {longer : SlotLayout}
    (built : ofVariants (first ++ more) = .ok longer) :
    ∃ layout, ofVariants first = .ok layout ∧
      (∀ (position : Nat) (slot : Slot), layout.slots[position]? = some slot →
        ∃ later : Slot, longer.slots[position]? = some later ∧ later.index = slot.index ∧
          later.name = slot.name ∧ later.ty.text = slot.ty.text ∧ later.ty.key = slot.ty.key ∧
          later.users.filter (fun user => user.1 ∈ first.map Variant.name) = slot.users) ∧
      ∀ variant ∈ first, ∀ field ∈ variant.fields, ∃ slot later,
        layout.slotFor variant.name field.name = some slot ∧
        longer.slotFor variant.name field.name = some later ∧ later.index = slot.index := by
  obtain ⟨layout, start, extended⟩ := ofVariants_extends built
  have valid := ofVariants_invariant start
  refine ⟨layout, start, ?_, ?_⟩
  · intro position slot found
    obtain ⟨later, present, same, added, users, strangers⟩ := extended.exists_slot found
    obtain ⟨index, ty⟩ := Prod.mk.inj same
    have known : ∀ user ∈ slot.users, user.1 ∈ first.map Variant.name := by
      intro user uses
      have here : user ∈ usersAt layout.slots position := by
        rwa [usersAt, found]
      obtain ⟨placed, listed, -⟩ := (valid.users position user).mp here
      rw [← valid.names]
      exact List.mem_map_of_mem listed
    refine ⟨later, present, index, by rw [Slot.name, Slot.name, index, ty], by rw [ty],
      by rw [ty], ?_⟩
    rw [users, List.filter_append, List.filter_eq_self.mpr, List.filter_eq_nil_iff.mpr,
      List.append_nil]
    · intro user new
      rw [← valid.names]
      simpa using strangers user new
    · simpa using known
  · intro variant member field declared
    obtain ⟨index, slot, found, stored⟩ := valid.exists_slotFor member declared
    obtain ⟨later, present, same, -⟩ := extended.exists_slot stored
    have known : variant.name ∈ layout.placements.map Prod.fst := by
      rw [valid.names]
      exact List.mem_map_of_mem member
    refine ⟨slot, later, ?_, ?_, (Prod.mk.inj same).1⟩
    · rw [slotFor, found, Option.bind_some, stored]
    · rw [slotFor, extended.indicesOf_eq known, found, Option.bind_some, present]

/-- Two variants, and a third one that is stored in a slot of theirs and in a new one. -/
theorem ofVariants_append_stable_sharing :
    ∃ longer layout, ofVariants (sharing.take 2 ++ sharing.drop 2) = .ok longer ∧
      ofVariants (sharing.take 2) = .ok layout ∧
      ∃ slot later, layout.slotFor "B" "1" = some slot ∧
        longer.slotFor "B" "1" = some later ∧ later.index = slot.index := by
  obtain ⟨longer, built⟩ : ∃ longer, ofVariants (sharing.take 2 ++ sharing.drop 2) = .ok longer :=
    ofVariants_isOk_iff.mpr (by decide)
  obtain ⟨layout, start, -, fields⟩ := ofVariants_append_stable built
  have stored := fields _ (List.mem_cons_of_mem _ List.mem_cons_self) ⟨"1", .named "i32"⟩
    (List.mem_cons_of_mem _ List.mem_cons_self)
  exact ⟨longer, layout, built, start, stored⟩

end SlotLayout

end VariantMerge
