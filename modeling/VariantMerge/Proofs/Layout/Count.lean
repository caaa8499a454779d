import Mathlib.Algebra.BigOperators.Group.Finset.Basic
import Mathlib.Algebra.Order.BigOperators.Group.Finset
import Mathlib.Data.List.Perm.Subperm
import VariantMerge.Proofs.Layout.Soundness

/-!
# The number of slots

A layout has as many slots of a type as the variant with most fields of that type needs, and no
more (`SlotLayout.ofVariants_count_slotKeys`). The invariant is that while a variant is being
placed, the slots of each type are as many as there were, or as many as its own fields placed so
far, whichever is more (`SlotLayout.Placing.Run.count_slotKeys`): a slot is added only when the
variant has taken all slots of the type, and reused only when it has not. Both bounds are counting
arguments about the positions at which a key is stored. So the number of slots is least among all
ways to give the fields of each variant slots of their own, and does not depend on the order of
variants or fields (`SlotLayout.ofVariants_minimal`).
-/

namespace VariantMerge

/-- How many fields have a type with this key. -/
def fieldCount (fields : List VariantField) (key : String) : Nat :=
  fields.countP fun field => field.ty.key == key

namespace SlotLayout

/-- The keys that slots store, in order. -/
def slotKeys (slots : List Slot) : List String :=
  slots.map fun slot => slot.ty.key

/-- The most fields with this key that one of the variants has, none if there is no variant. -/
def demand (variants : List Variant) (key : String) : Nat :=
  (variants.map fun variant => fieldCount variant.fields key).max?.getD 0

/-- The keys of all fields of the variants. -/
def fieldKeys (variants : List Variant) : Finset String :=
  (variants.flatMap fun variant => variant.fields.map fun field => field.ty.key).toFinset

/-- Slots that store these keys hold the fields of a variant: each field in a slot of its own that
stores its key. -/
def Holds (keys : List String) (fields : List VariantField) : Prop :=
  ∃ positions : List Nat, positions.Nodup ∧
    positions.map (fun position => keys[position]?) = fields.map fun field => some field.ty.key

/-- The same variants with their fields and then themselves in another order. -/
def Reordered (variants others : List Variant) : Prop :=
  ∃ shuffled, List.Forall₂ (fun variant other : Variant => other.name = variant.name ∧
    other.fields.Perm variant.fields) variants shuffled ∧ shuffled.Perm others

/-! ## Counting positions -/

/-- The positions at which a key is stored. -/
def positionsOf (keys : List String) (key : String) : List Nat :=
  (keys.zipIdx.filter fun entry => entry.1 == key).map Prod.snd

/-- The positions of a key are those at which it stands. -/
theorem mem_positionsOf {keys : List String} {key : String} {position : Nat} :
    position ∈ positionsOf keys key ↔ keys[position]? = some key := by
  simp [positionsOf, List.mk_mem_zipIdx_iff_getElem?]

/-- No position is listed twice. -/
theorem positionsOf_nodup (keys : List String) (key : String) :
    (positionsOf keys key).Nodup := by
  have positions : (keys.zipIdx.map Prod.snd).Nodup := by
    rw [List.zipIdx_map_snd]
    exact List.nodup_range'
  exact positions.sublist (List.filter_sublist.map _)

/-- A key stands at as many positions as it has occurrences. -/
theorem length_positionsOf (keys : List String) (key : String) :
    (positionsOf keys key).length = keys.count key := by
  rw [positionsOf, List.length_map, ← List.countP_eq_length_filter, List.count]
  conv_rhs => rw [← List.zipIdx_map_fst 0 keys, List.countP_map]
  rfl

variable {keys : List String} {positions : List Nat} {fields : List VariantField}

/-- The positions that store a key, among those where fields are stored. -/
private theorem length_filter_positions
    (stored : positions.map (fun position => keys[position]?) =
      fields.map fun field => some field.ty.key) (key : String) :
    (positions.filter fun position => keys[position]? == some key).length =
      fieldCount fields key := by
  have counted := congrArg (List.countP (· == some key)) stored
  rw [List.countP_map, List.countP_map] at counted
  rw [← List.countP_eq_length_filter, fieldCount]
  simpa [Function.comp_def] using counted

/-- Slots that hold fields are at least as many, for each key. -/
theorem Holds.fieldCount_le (holds : Holds keys fields) (key : String) :
    fieldCount fields key ≤ keys.count key := by
  obtain ⟨positions, distinct, stored⟩ := holds
  rw [← length_filter_positions stored, ← length_positionsOf]
  refine (List.subperm_of_subset (distinct.filter _) ?_).length_le
  intro position member
  exact mem_positionsOf.mpr (beq_iff_eq.mp (List.mem_filter.mp member).2)

/-- Slots are at most as many as the fields that they hold if none of them is free. -/
theorem count_le_fieldCount
    (stored : positions.map (fun position => keys[position]?) =
      fields.map fun field => some field.ty.key) {key : String}
    (full : ∀ position, keys[position]? = some key → position ∈ positions) :
    keys.count key ≤ fieldCount fields key := by
  rw [← length_filter_positions stored, ← length_positionsOf]
  refine (List.subperm_of_subset (positionsOf_nodup keys key) ?_).length_le
  intro position member
  have here := mem_positionsOf.mp member
  exact List.mem_filter.mpr ⟨full position here, beq_iff_eq.mpr here⟩

/-! ## What a layout holds -/

/-- The key at a position is that of the slot there. -/
theorem getElem?_slotKeys (slots : List Slot) (position : Nat) :
    (slotKeys slots)[position]? = keyAt slots position :=
  List.getElem?_map

/-- The users of slots do not matter for their keys. -/
theorem slotKeys_eq_of_core_eq {before after : List Slot}
    (same : after.map Slot.core = before.map Slot.core) : slotKeys after = slotKeys before := by
  have keys := congrArg (List.map fun core : Nat × Ty => core.2.key) same
  simpa only [slotKeys, List.map_map, Function.comp_def, Slot.core] using keys

/-- A new slot adds its key at the end. -/
theorem slotKeys_concat {before after : List Slot} {index : Nat} {ty : Ty}
    (added : after.map Slot.core = before.map Slot.core ++ [(index, ty)]) :
    slotKeys after = slotKeys before ++ [ty.key] := by
  have keys := congrArg (List.map fun core : Nat × Ty => core.2.key) added
  simpa only [slotKeys, List.map_append, List.map_map, Function.comp_def, Slot.core,
    List.map_singleton] using keys

/-- Each field is stored under its own key. -/
theorem Placed.stored {slots : List Slot} {fields : List VariantField}
    {placed : List (String × Nat)} (valid : Placed slots fields placed) :
    (placed.map Prod.snd).map (fun position => (slotKeys slots)[position]?) =
      fields.map fun field => some field.ty.key := by
  have entries := congrArg (List.map Prod.snd) valid.entries
  simpa only [List.map_map, Function.comp_def, getElem?_slotKeys] using entries

/-- A placement shows that the keys are enough for the fields. -/
theorem Placed.holds {slots : List Slot} {fields : List VariantField}
    {placed : List (String × Nat)} (valid : Placed slots fields placed) :
    Holds (slotKeys slots) fields :=
  ⟨_, valid.distinct, valid.stored⟩

/-- One more field counts for its own key. -/
theorem fieldCount_concat (fields : List VariantField) (field : VariantField) (key : String) :
    fieldCount (fields ++ [field]) key =
      fieldCount fields key + if field.ty.key = key then 1 else 0 := by
  simp [fieldCount, List.countP_append, List.countP_singleton]

/-- **Slots while a variant is placed.** Of each key there are as many as before, or as many as
the variant's fields placed so far, whichever is more. -/
theorem Placing.Run.count_slotKeys {slots : List Slot} {variant : String}
    {fields : List VariantField} {placing : Placing} (run : Run slots variant fields placing)
    (indexed : Indexed slots) (key : String) :
    (slotKeys placing.slots).count key =
      max ((slotKeys slots).count key) (fieldCount fields key) := by
  induction run with
  | start => simp [fieldCount]
  | @step fields field placing after index run step ih =>
      have valid := run.invariant indexed
      obtain ⟨-, cores⟩ | ⟨-, taken, cores⟩ := step.reusesOrAdds
      · -- The field fits into the slots that were there, so these are enough.
        have enough := (step.invariant valid).placed.holds.fieldCount_le key
        rw [slotKeys_eq_of_core_eq cores] at enough ⊢
        rw [fieldCount_concat] at enough ⊢
        omega
      · -- Every slot of the type is taken, so there are no more than fields placed so far.
        rw [slotKeys_concat cores, List.count_append, List.count_singleton, fieldCount_concat]
        by_cases same : field.ty.key = key
        · have full : (slotKeys placing.slots).count key ≤ fieldCount fields key := by
            apply count_le_fieldCount valid.placed.stored
            intro position here
            rw [getElem?_slotKeys] at here
            obtain ⟨slot, found, stores⟩ := Option.map_eq_some_iff.mp here
            rw [← valid.indexed.index_eq found]
            exact taken slot (List.mem_of_getElem? found) (stores.trans same.symm)
          simp only [same, beq_self_eq_true, ↓reduceIte]
          omega
        · simp only [same, beq_eq_false_iff_ne.mpr same, Bool.false_eq_true, ↓reduceIte]
          omega

/-! ## The demand for slots -/

/-- The demand for a key is the least number that covers every variant. -/
theorem demand_le_iff {variants : List Variant} {key : String} {bound : Nat} :
    demand variants key ≤ bound ↔
      ∀ variant ∈ variants, fieldCount variant.fields key ≤ bound := by
  unfold demand
  cases most : (variants.map fun variant => fieldCount variant.fields key).max? with
  | none =>
      rw [List.max?_eq_none_iff, List.map_eq_nil_iff] at most
      simp [most]
  | some count => simpa using List.max?_le_iff most

/-- One more variant asks for as many slots as it has fields, but shares those of the others. -/
theorem demand_concat (variants : List Variant) (variant : Variant) (key : String) :
    demand (variants ++ [variant]) key =
      max (demand variants key) (fieldCount variant.fields key) := by
  apply eq_of_forall_ge_iff
  intro bound
  rw [max_le_iff, demand_le_iff, demand_le_iff]
  simp only [List.forall_mem_append, List.forall_mem_singleton]

/-- **As many slots as needed.** A layout has as many slots of each key as the variant with most
fields of that key. -/
theorem ofVariants_count_slotKeys {variants : List Variant} {layout : SlotLayout}
    (built : ofVariants variants = .ok layout) (key : String) :
    (slotKeys layout.slots).count key = demand variants key := by
  induction variants using List.reverseRecOn generalizing layout with
  | nil =>
      cases built
      rfl
  | append_singleton variants variant ih =>
      obtain ⟨before, earlier, added⟩ := ofVariants_concat_eq_ok_iff.mp built
      obtain ⟨-, rfl⟩ := addVariant_eq_ok_iff.mp added
      have indexed := (ofVariants_invariant earlier).indexed
      rw [(placeAll_run indexed variant).count_slotKeys indexed, ih earlier, demand_concat]

/-! ## The number of all slots -/

/-- The keys of fields are those of some field of some variant. -/
theorem mem_fieldKeys {variants : List Variant} {key : String} :
    key ∈ fieldKeys variants ↔
      ∃ variant ∈ variants, ∃ field ∈ variant.fields, field.ty.key = key := by
  simp [fieldKeys]

/-- There is demand for the keys of fields only. -/
theorem demand_eq_zero {variants : List Variant} {key : String}
    (absent : key ∉ fieldKeys variants) : demand variants key = 0 := by
  rw [← Nat.le_zero, demand_le_iff]
  intro variant member
  rw [fieldCount, Nat.le_zero, List.countP_eq_zero]
  intro field declared same
  exact absent (mem_fieldKeys.mpr ⟨variant, member, field, declared, beq_iff_eq.mp same⟩)

/-- There are as many slots in all as there is demand for the keys together. -/
theorem ofVariants_length {variants : List Variant} {layout : SlotLayout}
    (built : ofVariants variants = .ok layout) :
    layout.slots.length = ∑ key ∈ fieldKeys variants, demand variants key := by
  have counts := ofVariants_count_slotKeys built
  have stored : (slotKeys layout.slots).toFinset ⊆ fieldKeys variants := by
    intro key member
    by_contra absent
    have present := List.count_pos_iff.mpr (List.mem_toFinset.mp member)
    rw [counts, demand_eq_zero absent] at present
    exact Nat.lt_irrefl 0 present
  calc layout.slots.length = (slotKeys layout.slots).length := by
        rw [slotKeys, List.length_map]
    _ = ∑ key ∈ (slotKeys layout.slots).toFinset, (slotKeys layout.slots).count key :=
        (List.sum_toFinset_count_eq_length _).symm
    _ = ∑ key ∈ fieldKeys variants, (slotKeys layout.slots).count key := by
        apply Finset.sum_subset stored
        intro key _ absent
        exact List.count_eq_zero.mpr fun member => absent (List.mem_toFinset.mpr member)
    _ = ∑ key ∈ fieldKeys variants, demand variants key :=
        Finset.sum_congr rfl fun key _ => counts key

/-- Slots that hold each variant's fields cover the demand for every key. -/
theorem demand_le_count {variants : List Variant} {keys : List String}
    (holds : ∀ variant ∈ variants, Holds keys variant.fields) (key : String) :
    demand variants key ≤ keys.count key :=
  demand_le_iff.mpr fun variant member => (holds variant member).fieldCount_le key

/-- The order of the fields does not matter for their count. -/
theorem fieldCount_perm {fields others : List VariantField} (same : fields.Perm others)
    (key : String) : fieldCount fields key = fieldCount others key :=
  same.countP_eq _

/-- What is asked of all variants, and does not depend on the order of their fields, is asked of
the reordered ones. -/
theorem Reordered.forall_iff {variants others : List Variant}
    (reordered : Reordered variants others) {motive : Variant → Prop}
    (invariant : ∀ variant other : Variant, other.fields.Perm variant.fields →
      (motive other ↔ motive variant)) :
    (∀ other ∈ others, motive other) ↔ ∀ variant ∈ variants, motive variant := by
  obtain ⟨shuffled, fields, order⟩ := reordered
  simp only [← order.mem_iff]
  clear order
  induction fields with
  | nil => rfl
  | cons head _ ih =>
      rw [List.forall_mem_cons, List.forall_mem_cons, ih, invariant _ _ head.2]

/-- The order of variants and fields does not matter for the demand. -/
theorem Reordered.demand_eq {variants others : List Variant}
    (reordered : Reordered variants others) (key : String) :
    demand others key = demand variants key := by
  apply eq_of_forall_ge_iff
  intro bound
  rw [demand_le_iff, demand_le_iff]
  apply reordered.forall_iff
  intro variant other same
  rw [fieldCount_perm same]

/-- The order of variants and fields does not matter for the keys. -/
theorem Reordered.fieldKeys_eq {variants others : List Variant}
    (reordered : Reordered variants others) : fieldKeys others = fieldKeys variants := by
  ext key
  rw [← not_iff_not, mem_fieldKeys, mem_fieldKeys]
  push Not
  apply reordered.forall_iff
  intro variant other same
  simp only [same.mem_iff]

/-- Variants in another order have different names still. -/
theorem Reordered.names_nodup {variants others : List Variant}
    (reordered : Reordered variants others) (distinct : (variants.map Variant.name).Nodup) :
    (others.map Variant.name).Nodup := by
  obtain ⟨shuffled, fields, order⟩ := reordered
  have names : shuffled.map Variant.name = variants.map Variant.name := by
    clear order distinct
    induction fields with
    | nil => rfl
    | cons head _ ih => rw [List.map_cons, List.map_cons, head.1, ih]
  rw [← names] at distinct
  exact (order.map Variant.name).nodup_iff.mp distinct

/-- **Layouts are minimal.** A layout has as many slots of each key as the variant with most fields
of that key, so the number of its slots is the sum of these maxima, and it is the same for the
variants and their fields in any other order. It holds the fields of each variant in slots of their
own, and no slots that do so are fewer. -/
theorem ofVariants_minimal {variants : List Variant} {layout : SlotLayout}
    (built : ofVariants variants = .ok layout) :
    (∀ key, layout.slots.countP (fun slot => slot.ty.key == key) = demand variants key) ∧
      layout.slots.length = ∑ key ∈ fieldKeys variants, demand variants key ∧
      (∀ others, Reordered variants others → ∃ other, ofVariants others = .ok other ∧
        other.slots.length = layout.slots.length) ∧
      (∀ variant ∈ variants, Holds (slotKeys layout.slots) variant.fields) ∧
      ∀ keys, (∀ variant ∈ variants, Holds keys variant.fields) →
        layout.slots.length ≤ keys.length := by
  have counts := ofVariants_count_slotKeys built
  have total := ofVariants_length built
  refine ⟨?_, total, ?_, ?_, ?_⟩
  · intro key
    rw [← counts key, slotKeys, List.count, List.countP_map]
    rfl
  · intro others reordered
    obtain ⟨other, built'⟩ := ofVariants_isOk_iff.mpr
      (reordered.names_nodup (ofVariants_invariant built).distinct)
    refine ⟨other, built', ?_⟩
    rw [ofVariants_length built', total, reordered.fieldKeys_eq]
    exact Finset.sum_congr rfl fun key _ => reordered.demand_eq key
  · intro variant member
    obtain ⟨placed, -, fits⟩ := (ofVariants_invariant built).exists_placed member
    exact fits.holds
  · intro keys holds
    have covered : (slotKeys layout.slots).Subperm keys := by
      rw [List.subperm_iff_count]
      intro key
      rw [counts key]
      exact demand_le_count holds key
    simpa only [slotKeys, List.length_map] using covered.length_le

/-- The layout of variants that share slots. -/
def sharingLayout : SlotLayout where
  slots :=
    [⟨0, .named "i32", [("A", "field"), ("B", "1"), ("C", "field")]⟩,
      ⟨1, .named "bool", [("B", "0")]⟩,
      ⟨2, .named "i32", [("B", "2")]⟩,
      ⟨3, .named "i32_1", [("C", "odd")]⟩]
  placements :=
    [("A", [("field", 0)]),
      ("B", [("0", 1), ("1", 0), ("2", 2)]),
      ("C", [("odd", 3), ("field", 0)])]

/-- Variants that share slots take four, and none less would do. -/
theorem ofVariants_minimal_sharing :
    ofVariants sharing = .ok sharingLayout ∧
      (∀ key, sharingLayout.slots.countP (fun slot => slot.ty.key == key) = demand sharing key) ∧
      ∀ keys, (∀ variant ∈ sharing, Holds keys variant.fields) → 4 ≤ keys.length := by
  have built : ofVariants sharing = .ok sharingLayout := rfl
  obtain ⟨counts, -, -, -, least⟩ := ofVariants_minimal built
  exact ⟨built, counts, least⟩

end SlotLayout

end VariantMerge
