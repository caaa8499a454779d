import VariantMerge.Proofs.Layout.Soundness

/-!
# Where the type of a slot comes from

A slot is added for a field and keeps the type of that field, which stays the first of its users. So
the text of every slot's type has been taken from one field of one variant
(`SlotLayout.ofVariants_firstUser`), also if later fields in the slot write the type differently.
-/

namespace VariantMerge

/-- The first user of the slot, with the slot's type, is one of these. -/
def Slot.IsTypedBy (source : String × String → Ty → Prop) (slot : Slot) : Prop :=
  ∃ user, slot.users.head? = some user ∧ source user slot.ty

theorem Slot.IsTypedBy.usedBy {source : String × String → Ty → Prop} {slot : Slot}
    (typed : slot.IsTypedBy source) (index : Nat) (user : String × String) :
    (slot.usedBy index user).IsTypedBy source := by
  obtain ⟨first, head, holds⟩ := typed
  have kept : (slot.usedBy index user).ty = slot.ty :=
    congrArg Prod.snd (usedBy_core index user slot)
  refine ⟨first, ?_, kept.symm ▸ holds⟩
  rw [usedBy_users, List.head?_append, head]
  rfl

namespace SlotLayout

variable {source : String × String → Ty → Prop}

theorem Placing.place_typed {variant : String} {field : VariantField} {placing : Placing}
    (each : ∀ slot ∈ placing.slots, slot.IsTypedBy source)
    (listed : source (variant, field.name) field.ty) :
    ∀ slot ∈ (placing.place variant field).slots, slot.IsTypedBy source := by
  unfold place
  split
  next free _ =>
    intro slot member
    obtain ⟨before, there, rfl⟩ := List.mem_map.mp member
    exact (each before there).usedBy free.index (variant, field.name)
  next =>
    intro slot member
    obtain there | added := List.mem_append.mp member
    · exact each slot there
    · rw [List.mem_singleton.mp added]
      exact ⟨_, rfl, listed⟩

theorem placeAll_typed {slots : List Slot} {variant : Variant}
    (each : ∀ slot ∈ slots, slot.IsTypedBy source)
    (listed : ∀ field ∈ variant.fields, source (variant.name, field.name) field.ty) :
    ∀ slot ∈ (placeAll slots variant).slots, slot.IsTypedBy source := by
  unfold placeAll
  revert listed
  induction variant.fields using List.reverseRecOn with
  | nil => exact fun _ => each
  | append_singleton fields field ih =>
      intro listed
      rw [List.foldl_append, List.foldl_cons, List.foldl_nil]
      refine Placing.place_typed (ih fun earlier member => ?_) ?_
      · exact listed earlier (List.mem_append_left _ member)
      · exact listed field (List.mem_append_right _ (List.mem_singleton_self _))

/-- **The type of a slot.** It is that of a field: of the slot's first user. -/
theorem ofVariants_firstUser {variants : List Variant} {layout : SlotLayout}
    (built : ofVariants variants = .ok layout) :
    ∀ slot ∈ layout.slots, ∃ variant ∈ variants, ∃ field ∈ variant.fields,
      slot.users.head? = some (variant.name, field.name) ∧ slot.ty = field.ty := by
  have typed : ∀ slot ∈ layout.slots, slot.IsTypedBy fun user ty =>
      ∃ variant ∈ variants, ∃ field ∈ variant.fields,
        user = (variant.name, field.name) ∧ ty = field.ty := by
    induction variants using List.reverseRecOn generalizing layout with
    | nil =>
        cases built
        exact fun _ member => nomatch member
    | append_singleton variants variant ih =>
        obtain ⟨before, earlier, added⟩ := ofVariants_concat_eq_ok_iff.mp built
        obtain ⟨-, rfl⟩ := addVariant_eq_ok_iff.mp added
        refine placeAll_typed (fun slot there => ?_) fun field declared => ?_
        · obtain ⟨user, head, owner, listed, field⟩ := ih earlier slot there
          exact ⟨user, head, owner, List.mem_append_left _ listed, field⟩
        · exact ⟨variant, List.mem_append_right _ (List.mem_singleton_self _), field, declared,
            rfl, rfl⟩
  intro slot stored
  obtain ⟨user, head, variant, listed, field, declared, rfl, same⟩ := typed slot stored
  exact ⟨variant, listed, field, declared, head, same⟩

end SlotLayout

end VariantMerge
