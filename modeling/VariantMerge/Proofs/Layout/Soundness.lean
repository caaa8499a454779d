import VariantMerge.Proofs.Entries
import VariantMerge.Proofs.Layout.Placing
import VariantMerge.Proofs.Layout.SlotName

/-!
# Soundness of a layout

`SlotLayout.Invariant` is what every layout of a list of variants satisfies: slots stand where
their index says, each variant's fields went to distinct slots of their types, and the users of a
slot are exactly the fields that went there. Adding a variant keeps it
(`SlotLayout.Invariant.addVariant`), so a whole run establishes it
(`SlotLayout.ofVariants_invariant`). A layout fails only when two variants share a name
(`SlotLayout.ofVariants_isOk_iff`). What a reader of a layout may rely on, field by field and slot
by slot, is `SlotLayout.Sound`.
-/

namespace VariantMerge

/-- A type that is a single name. -/
def Ty.named (name : String) : Ty :=
  .path (.mk false [.mk name .none])

namespace SlotLayout

/-- What holds of the layout of a list of variants. -/
structure Invariant (variants : List Variant) (layout : SlotLayout) : Prop where
  indexed : Indexed layout.slots
  names : layout.placements.map Prod.fst = variants.map Variant.name
  distinct : (variants.map Variant.name).Nodup
  placed : ∀ entry ∈ layout.placements, ∃ variant ∈ variants, variant.name = entry.1 ∧
    Placed layout.slots variant.fields entry.2
  users : ∀ position user, user ∈ usersAt layout.slots position ↔
    ∃ placed, (user.1, placed) ∈ layout.placements ∧ (user.2, position) ∈ placed
  used : ∀ position < layout.slots.length, usersAt layout.slots position ≠ []

/-- Without variants there are no slots. -/
theorem Invariant.empty : Invariant [] empty where
  indexed := rfl
  names := rfl
  distinct := List.nodup_nil
  placed := by simp [SlotLayout.empty]
  users := by simp [SlotLayout.empty, usersAt]
  used := by simp [SlotLayout.empty]

/-- A variant is added unless its name is there already. -/
theorem addVariant_eq_ok_iff {layout after : SlotLayout} {variant : Variant} :
    layout.addVariant variant = .ok after ↔
      variant.name ∉ layout.placements.map Prod.fst ∧
        after = ⟨(placeAll layout.slots variant).slots,
          layout.placements ++ [(variant.name, (placeAll layout.slots variant).placed)]⟩ := by
  have seen : layout.placements.any (·.1 == variant.name) = true ↔
      variant.name ∈ layout.placements.map Prod.fst := by
    simp only [List.any_eq_true, beq_iff_eq, List.mem_map]
  unfold addVariant
  by_cases member : variant.name ∈ layout.placements.map Prod.fst
  · simp [seen.mpr member, member]
  · have unseen := (seen.not.mpr member)
    rw [Bool.not_eq_true] at unseen
    simp only [unseen, Bool.false_eq_true, ↓reduceIte, Except.ok.injEq, member, not_false_eq_true,
      true_and]
    exact eq_comm

/-- **One more variant.** Adding it keeps what holds of the layout. -/
theorem Invariant.addVariant {variants : List Variant} {variant : Variant}
    {layout after : SlotLayout} (valid : Invariant variants layout)
    (added : layout.addVariant variant = .ok after) : Invariant (variants ++ [variant]) after := by
  obtain ⟨fresh, rfl⟩ := addVariant_eq_ok_iff.mp added
  have placing := placeAll_invariant valid.indexed variant
  refine ⟨placing.indexed, ?_, ?_, ?_, ?_, ?_⟩
  · rw [List.map_append, List.map_append, valid.names]
    rfl
  · rw [valid.names] at fresh
    rw [List.map_append, List.map_singleton, List.nodup_append]
    refine ⟨valid.distinct, List.nodup_singleton _, ?_⟩
    rintro name earlier _ new rfl
    exact fresh (List.mem_singleton.mp new ▸ earlier)
  · intro entry member
    obtain earlier | new := List.mem_append.mp member
    · obtain ⟨owner, listed, named, placed⟩ := valid.placed entry earlier
      exact ⟨owner, List.mem_append_left _ listed, named, placed.grow placing.grows⟩
    · rw [List.mem_singleton.mp new]
      exact ⟨variant, List.mem_append_right _ (List.mem_singleton_self _), rfl, placing.placed⟩
  · intro position user
    rw [placing.users, valid.users]
    constructor
    · rintro (⟨placed, earlier, stored⟩ | ⟨named, stored⟩)
      · exact ⟨placed, List.mem_append_left _ earlier, stored⟩
      · refine ⟨_, List.mem_append_right _ (List.mem_singleton.mpr ?_), stored⟩
        rw [named]
    · rintro ⟨placed, member, stored⟩
      obtain earlier | new := List.mem_append.mp member
      · exact .inl ⟨placed, earlier, stored⟩
      · obtain ⟨named, rfl⟩ := Prod.mk.inj (List.mem_singleton.mp new)
        exact .inr ⟨named, stored⟩
  · intro position inside unused
    have none_uses : ∀ user, user ∉ usersAt (placeAll layout.slots variant).slots position := by
      rw [unused]
      exact fun _ => List.not_mem_nil
    obtain old | taken := placing.used position inside
    · obtain ⟨user, uses⟩ := List.exists_mem_of_ne_nil _ (valid.used position old)
      exact none_uses user ((placing.users position user).mpr (.inl uses))
    · obtain ⟨⟨field, _⟩, stored, rfl⟩ := List.mem_map.mp taken
      exact none_uses (variant.name, field) ((placing.users _ _).mpr (.inr ⟨rfl, stored⟩))

/-- The layout of more variants continues the layout of the first ones. -/
theorem ofVariants_append (first second : List Variant) :
    ofVariants (first ++ second) =
      (ofVariants first).bind fun layout => second.foldlM SlotLayout.addVariant layout :=
  List.foldlM_append

/-- The last variant is added to the layout of the others. -/
theorem ofVariants_concat_eq_ok_iff {variants : List Variant} {variant : Variant}
    {after : SlotLayout} :
    ofVariants (variants ++ [variant]) = .ok after ↔
      ∃ layout, ofVariants variants = .ok layout ∧ layout.addVariant variant = .ok after := by
  rw [ofVariants_append]
  cases ofVariants variants with
  | error failure => simp [Except.bind]
  | ok layout => simp [Except.bind]

/-- **Every layout satisfies the invariant.** -/
theorem ofVariants_invariant {variants : List Variant} {layout : SlotLayout}
    (built : ofVariants variants = .ok layout) : Invariant variants layout := by
  induction variants using List.reverseRecOn generalizing layout with
  | nil =>
      cases built
      exact Invariant.empty
  | append_singleton variants variant ih =>
      obtain ⟨before, earlier, added⟩ := ofVariants_concat_eq_ok_iff.mp built
      exact (ih earlier).addVariant added

/-- There is a layout exactly when no two variants have one name. -/
theorem ofVariants_isOk_iff {variants : List Variant} :
    (∃ layout, ofVariants variants = .ok layout) ↔ (variants.map Variant.name).Nodup := by
  refine ⟨fun ⟨_, built⟩ => (ofVariants_invariant built).distinct, fun distinct => ?_⟩
  induction variants using List.reverseRecOn with
  | nil => exact ⟨empty, rfl⟩
  | append_singleton variants variant ih =>
      rw [List.map_append, List.nodup_append] at distinct
      obtain ⟨earlier, -, disjoint⟩ := distinct
      obtain ⟨layout, built⟩ := ih earlier
      have fresh : variant.name ∉ layout.placements.map Prod.fst := by
        rw [(ofVariants_invariant built).names]
        exact fun member => disjoint _ member _ (List.mem_singleton_self variant.name) rfl
      exact ⟨_, ofVariants_concat_eq_ok_iff.mpr
        ⟨layout, built, addVariant_eq_ok_iff.mpr ⟨fresh, rfl⟩⟩⟩

/-! ## Reading a layout -/

/-- The users of a slot are found at its index. -/
theorem mem_usersAt_iff {slots : List Slot} (indexed : Indexed slots) {slot : Slot}
    (member : slot ∈ slots) (user : String × String) :
    user ∈ usersAt slots slot.index ↔ user ∈ slot.users := by
  rw [usersAt, indexed.getElem? member, Option.map_some, Option.getD_some]

/-- Slots of one layout have different names. -/
theorem Indexed.name_nodup {slots : List Slot} (indexed : Indexed slots) :
    (slots.map Slot.name).Nodup := by
  have different := List.pairwise_map.mp indexed.index_nodup
  exact List.pairwise_map.mpr
    (different.imp fun unequal same => unequal (Slot.nameFor_index_inj same))

namespace Invariant

variable {variants : List Variant} {layout : SlotLayout}

/-- Each variant is placed once. -/
theorem placements_distinct (valid : Invariant variants layout) :
    (layout.placements.map Prod.fst).Nodup := by
  rw [valid.names]
  exact valid.distinct

/-- Each variant is placed, in slots of its fields' keys. -/
theorem exists_placed (valid : Invariant variants layout) {variant : Variant}
    (member : variant ∈ variants) :
    ∃ placed, (variant.name, placed) ∈ layout.placements ∧
      Placed layout.slots variant.fields placed := by
  have listed := List.mem_map_of_mem (f := Variant.name) member
  rw [← valid.names] at listed
  obtain ⟨⟨name, placed⟩, present, named⟩ := List.mem_map.mp listed
  obtain ⟨owner, declared, owned, fits⟩ := valid.placed _ present
  have same := List.inj_on_of_nodup_map valid.distinct declared member (owned.trans named)
  subst same
  exact ⟨placed, by rwa [owned], fits⟩

/-- A variant with distinct field names is read back as it was placed. -/
theorem indicesOf_eq (valid : Invariant variants layout) {name : String}
    {placed : List (String × Nat)} (member : (name, placed) ∈ layout.placements)
    (distinct : (placed.map Prod.fst).Nodup) : layout.indicesOf name = placed := by
  rw [indicesOf, (lookup_eq_some_iff_mem valid.placements_distinct).mpr member]
  exact foldl_assign distinct

/-- Where a variant with distinct field names reads its fields. -/
theorem placed_indicesOf (valid : Invariant variants layout) {variant : Variant}
    (member : variant ∈ variants)
    (distinct : (variant.fields.map VariantField.name).Nodup) :
    (variant.name, layout.indicesOf variant.name) ∈ layout.placements ∧
      Placed layout.slots variant.fields (layout.indicesOf variant.name) := by
  obtain ⟨placed, present, fits⟩ := valid.exists_placed member
  rw [← fits.names] at distinct
  rw [valid.indicesOf_eq present distinct]
  exact ⟨present, fits⟩

/-- What is no variant has no slots. -/
theorem indicesOf_of_notMem {name : String} (absent : name ∉ layout.placements.map Prod.fst) :
    layout.indicesOf name = [] := by
  rw [indicesOf, lookup_eq_none_of_notMem absent]
  rfl

end Invariant

/-- The fields of a variant with the indices of their slots are those that were placed. -/
theorem fieldsOf_indices {layout : SlotLayout} {variant : String}
    (indexed : Indexed layout.slots)
    (inside : ∀ entry ∈ layout.indicesOf variant, entry.2 < layout.slots.length) :
    (layout.fieldsOf variant).map (fun entry => (entry.1, entry.2.index)) =
      layout.indicesOf variant := by
  unfold fieldsOf
  revert inside
  induction layout.indicesOf variant with
  | nil => exact fun _ => rfl
  | cons entry rest ih =>
      intro inside
      obtain ⟨field, index⟩ := entry
      obtain ⟨slot, found⟩ : ∃ slot, layout.slots[index]? = some slot :=
        ⟨_, List.getElem?_eq_getElem (inside (field, index) List.mem_cons_self)⟩
      have later := ih fun other member => inside other (List.mem_cons_of_mem _ member)
      rw [List.filterMap_cons_some (b := (field, slot)) (by simp only [found, Option.map_some]),
        List.map_cons, later, indexed.index_eq found]

/-- The slots of a variant's fields are slots of the layout. -/
theorem mem_slots_of_mem_fieldsOf {layout : SlotLayout} {variant : String}
    {entry : String × Slot} (member : entry ∈ layout.fieldsOf variant) :
    entry.2 ∈ layout.slots := by
  obtain ⟨⟨field, index⟩, -, found⟩ := List.mem_filterMap.mp member
  obtain ⟨slot, present, rfl⟩ := Option.map_eq_some_iff.mp found
  exact List.mem_of_getElem? present

namespace Invariant

variable {variants : List Variant} {layout : SlotLayout}

/-- The fields of a variant are listed with the slots that they are found in. -/
theorem mem_fieldsOf_iff (valid : Invariant variants layout) {variant : Variant}
    (member : variant ∈ variants)
    (distinct : (variant.fields.map VariantField.name).Nodup) {field : String} {slot : Slot} :
    (field, slot) ∈ layout.fieldsOf variant.name ↔
      layout.slotFor variant.name field = some slot := by
  have placed := (valid.placed_indicesOf member distinct).2
  have named : ((layout.indicesOf variant.name).map Prod.fst).Nodup := placed.names ▸ distinct
  rw [fieldsOf, List.mem_filterMap, slotFor, Option.bind_eq_some_iff]
  constructor
  · rintro ⟨⟨_, index⟩, present, stored⟩
    obtain ⟨_, here, same⟩ := Option.map_eq_some_iff.mp stored
    obtain ⟨rfl, rfl⟩ := Prod.mk.inj same
    exact ⟨index, (lookup_eq_some_iff_mem named).mpr present, here⟩
  · rintro ⟨index, found, here⟩
    exact ⟨(field, index), lookup_mem found, by simp only [here, Option.map_some]⟩

/-- What a variant's conversions read: each field once, in order of declaration. -/
theorem fieldsOf_names (valid : Invariant variants layout) {variant : Variant}
    (member : variant ∈ variants)
    (distinct : (variant.fields.map VariantField.name).Nodup) :
    (layout.fieldsOf variant.name).map Prod.fst = variant.fields.map VariantField.name := by
  have placed := (valid.placed_indicesOf member distinct).2
  rw [← placed.names, ← fieldsOf_indices valid.indexed fun entry present =>
    placed.lt_length _ (List.mem_map_of_mem present), List.map_map]
  rfl

/-- Different fields of a variant are read from slots with different names. -/
theorem fieldsOf_slotNames_nodup (valid : Invariant variants layout) {variant : Variant}
    (member : variant ∈ variants)
    (distinct : (variant.fields.map VariantField.name).Nodup) :
    ((layout.fieldsOf variant.name).map fun entry => entry.2.name).Nodup := by
  have placed := (valid.placed_indicesOf member distinct).2
  have indices := placed.distinct
  rw [← fieldsOf_indices valid.indexed fun entry present =>
    placed.lt_length _ (List.mem_map_of_mem present), List.map_map] at indices
  have different := List.pairwise_map.mp indices
  exact List.pairwise_map.mpr
    (different.imp fun unequal same => unequal (Slot.nameFor_index_inj same))

end Invariant

/-- What a reader of a layout may rely on. -/
structure Sound (variants : List Variant) (layout : SlotLayout) : Prop where
  /-- A slot carries its position. -/
  index_eq : ∀ (position : Nat) (slot : Slot), layout.slots[position]? = some slot →
    slot.index = position
  slotNames_nodup : (layout.slots.map Slot.name).Nodup
  /-- Every field has a slot, and the slot stores the field's type. -/
  slotFor_field : ∀ variant ∈ variants, ∀ field ∈ variant.fields, ∃ slot ∈ layout.slots,
    layout.slotFor variant.name field.name = some slot ∧ slot.ty.key = field.ty.key
  /-- No two fields of a variant share a slot. -/
  slotFor_inj : ∀ variant ∈ variants, ∀ first ∈ variant.fields, ∀ second ∈ variant.fields,
    layout.slotFor variant.name first.name = layout.slotFor variant.name second.name →
      first = second
  /-- A slot knows which fields it stores, and lists no others. -/
  mem_users_iff : ∀ slot ∈ layout.slots, ∀ variant field,
    (variant, field) ∈ slot.users ↔ layout.slotFor variant field = some slot
  /-- The fields of a variant are listed in order of declaration, each with its slot. -/
  fieldsOf_eq : ∀ variant ∈ variants,
    (layout.fieldsOf variant.name).map (fun entry => (entry.1, some entry.2)) =
      variant.fields.map fun field => (field.name, layout.slotFor variant.name field.name)
  used : ∀ slot ∈ layout.slots, slot.users ≠ []

namespace Invariant

variable {variants : List Variant} {layout : SlotLayout}

/-- A field is found in a slot exactly when it was placed there. -/
theorem slotFor_eq_some_iff (valid : Invariant variants layout) {name field : String}
    {placed : List (String × Nat)} (member : (name, placed) ∈ layout.placements)
    (distinct : (placed.map Prod.fst).Nodup) {slot : Slot} (stored : slot ∈ layout.slots) :
    layout.slotFor name field = some slot ↔ (field, slot.index) ∈ placed := by
  rw [slotFor, valid.indicesOf_eq member distinct, Option.bind_eq_some_iff]
  constructor
  · rintro ⟨index, found, present⟩
    rw [valid.indexed.index_eq present]
    exact lookup_mem found
  · intro listed
    exact ⟨slot.index, (lookup_eq_some_iff_mem distinct).mpr listed,
      valid.indexed.getElem? stored⟩

section Distinct

variable (valid : Invariant variants layout)
  (distinct : ∀ variant ∈ variants, (variant.fields.map VariantField.name).Nodup)

include valid distinct

/-- Where a variant's fields were placed, and that the fields are told apart by their names. -/
theorem exists_distinct {variant : Variant} (member : variant ∈ variants) :
    ∃ placed, (variant.name, placed) ∈ layout.placements ∧ Placed layout.slots variant.fields placed ∧
      (placed.map Prod.fst).Nodup := by
  obtain ⟨placed, present, fits⟩ := valid.exists_placed member
  exact ⟨placed, present, fits, fits.names ▸ distinct variant member⟩

/-- Each field has a slot of its own key. -/
theorem slotFor_field {variant : Variant} (member : variant ∈ variants) {field : VariantField}
    (declared : field ∈ variant.fields) :
    ∃ slot ∈ layout.slots,
      layout.slotFor variant.name field.name = some slot ∧ slot.ty.key = field.ty.key := by
  obtain ⟨placed, present, fits, named⟩ := valid.exists_distinct distinct member
  obtain ⟨index, listed, key⟩ := fits.exists_entry declared
  obtain ⟨slot, found, stores⟩ := Option.map_eq_some_iff.mp key
  have stored := List.mem_of_getElem? found
  refine ⟨slot, stored, (valid.slotFor_eq_some_iff present named stored).mpr ?_, stores⟩
  rwa [valid.indexed.index_eq found]

/-- Two fields of a variant have different slots. -/
theorem slotFor_inj {variant : Variant} (member : variant ∈ variants) {first second : VariantField}
    (declared : first ∈ variant.fields) (declared' : second ∈ variant.fields)
    (same : layout.slotFor variant.name first.name = layout.slotFor variant.name second.name) :
    first = second := by
  obtain ⟨placed, present, fits, named⟩ := valid.exists_distinct distinct member
  obtain ⟨slot, stored, found, -⟩ := valid.slotFor_field distinct member declared
  have iff (field : String) :
      layout.slotFor variant.name field = some slot ↔ (field, slot.index) ∈ placed :=
    valid.slotFor_eq_some_iff present named stored
  have listed := (iff first.name).mp found
  have listed' := (iff second.name).mp (same ▸ found)
  have entries := List.inj_on_of_nodup_map fits.distinct listed listed' rfl
  exact List.inj_on_of_nodup_map (distinct variant member) declared declared'
    (Prod.mk.inj entries).1

/-- A slot's users are the fields that are stored in it. -/
theorem mem_users_iff {slot : Slot} (stored : slot ∈ layout.slots) (name field : String) :
    (name, field) ∈ slot.users ↔ layout.slotFor name field = some slot := by
  rw [← mem_usersAt_iff valid.indexed stored, valid.users]
  have named : ∀ placed, (name, placed) ∈ layout.placements → (placed.map Prod.fst).Nodup := by
    intro placed present
    obtain ⟨variant, member, -, fits⟩ := valid.placed _ present
    exact fits.names ▸ distinct variant member
  constructor
  · rintro ⟨placed, present, listed⟩
    exact (valid.slotFor_eq_some_iff present (named placed present) stored).mpr listed
  · intro found
    by_cases known : name ∈ layout.placements.map Prod.fst
    · obtain ⟨⟨_, placed⟩, present, rfl⟩ := List.mem_map.mp known
      exact ⟨placed, present,
        (valid.slotFor_eq_some_iff present (named placed present) stored).mp found⟩
    · rw [slotFor, indicesOf_of_notMem known] at found
      cases found

/-- A variant's fields are listed with their slots, in order. -/
theorem fieldsOf_eq {variant : Variant} (member : variant ∈ variants) :
    (layout.fieldsOf variant.name).map (fun entry => (entry.1, some entry.2)) =
      variant.fields.map fun field => (field.name, layout.slotFor variant.name field.name) := by
  have found : ∀ entry ∈ layout.fieldsOf variant.name,
      (entry.1, some entry.2) = (entry.1, layout.slotFor variant.name entry.1) := by
    intro entry listed
    rw [(valid.mem_fieldsOf_iff member (distinct variant member)).mp listed]
  calc (layout.fieldsOf variant.name).map (fun entry => (entry.1, some entry.2))
      = ((layout.fieldsOf variant.name).map Prod.fst).map
          fun name => (name, layout.slotFor variant.name name) := by
        rw [List.map_map]
        exact List.map_congr_left found
    _ = _ := by
        rw [valid.fieldsOf_names member (distinct variant member), List.map_map]
        rfl

omit distinct in
/-- No slot is without a user. -/
theorem users_ne_nil {slot : Slot} (stored : slot ∈ layout.slots) : slot.users ≠ [] := by
  intro unused
  have inside := (List.getElem?_eq_some_iff.mp (valid.indexed.getElem? stored)).1
  apply valid.used slot.index inside
  rw [usersAt, valid.indexed.getElem? stored, Option.map_some, Option.getD_some, unused]

/-- **Soundness.** What holds of every layout makes it sound when the fields of each variant have
distinct names. -/
theorem sound : Sound variants layout where
  index_eq := fun _ _ found => valid.indexed.index_eq found
  slotNames_nodup := valid.indexed.name_nodup
  slotFor_field := fun _ member _ declared => valid.slotFor_field distinct member declared
  slotFor_inj := fun _ member _ declared _ declared' same =>
    valid.slotFor_inj distinct member declared declared' same
  mem_users_iff := fun _ stored => valid.mem_users_iff distinct stored
  fieldsOf_eq := fun _ member => valid.fieldsOf_eq distinct member
  used := fun _ stored => valid.users_ne_nil stored

end Distinct

end Invariant

/-- **Layouts are sound.** Variants with distinct names, whose fields have distinct names, always
have a layout, and it is sound. -/
theorem ofVariants_sound (variants : List Variant)
    (distinctVariants : (variants.map Variant.name).Nodup)
    (distinctFields : ∀ variant ∈ variants, (variant.fields.map VariantField.name).Nodup) :
    ∃ layout, ofVariants variants = .ok layout ∧ Sound variants layout := by
  obtain ⟨layout, built⟩ := ofVariants_isOk_iff.mpr distinctVariants
  exact ⟨layout, built, (ofVariants_invariant built).sound distinctFields⟩

/-- Three variants that share slots. The last one has a type whose words end in a number, as the
names of slots do. -/
def sharing : List Variant :=
  [⟨"A", .root, .named, [⟨"field", .named "i32"⟩]⟩,
    ⟨"B", .root, .tuple, [⟨"0", .named "bool"⟩, ⟨"1", .named "i32"⟩, ⟨"2", .named "i32"⟩]⟩,
    ⟨"C", .root, .named, [⟨"odd", .named "i32_1"⟩, ⟨"field", .named "i32"⟩]⟩]

/-- Variants that share slots have a sound layout. -/
theorem ofVariants_sound_sharing :
    (sharing.map Variant.name).Nodup ∧
      (∀ variant ∈ sharing, (variant.fields.map VariantField.name).Nodup) ∧
      ∃ layout, ofVariants sharing = .ok layout ∧ Sound sharing layout :=
  ⟨by decide, by decide, ofVariants_sound sharing (by decide) (by decide)⟩

end SlotLayout

end VariantMerge
