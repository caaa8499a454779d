import VariantMerge.Generation
import VariantMerge.Proofs.Conversion.Record
import VariantMerge.Proofs.Layout.Soundness

/-!
# What the conversions do

The three routines of a variant read as assignments between its fields and the slots of a merged
value, where a copy of a value equals it. A merged value has a field for the discriminant and one
for each slot, and the names of all of them share one namespace. A routine has no result where its
code would be rejected: where it names a field that is not there, gives one twice or leaves one
out. `Conversion.runFromMerged`, `Conversion.runToMerged` and `Conversion.runWriteInto` are the
routines of any conversion; for the conversions of a merged type, each of them has a result, and
`Convertible.runFromMerged_eq`, `Convertible.runToMerged_eq` and `Convertible.runWriteInto_eq` say
which.
-/

namespace VariantMerge

variable {α : Type*}

/-- What a field of a merged value holds: the discriminant, or the value in a slot. -/
inductive Cell (α : Type*) where
  | tag (variant : Option String)
  | content (value : α)
  deriving DecidableEq

/-- The value in a slot. -/
def Cell.content? : Cell α → Option α
  | .tag _ => none
  | .content value => some value

/-- A value of a merged type. -/
abbrev MergedValue (α : Type*) := Record (Cell α)

/-- The value has the fields that the merged struct declares. -/
structure MergedValue.IsOf (m : MergedValue α) (merged : MergedType) (config : Config) : Prop where
  fields : Record.HasFields m ((merged.mergedStruct config).fields.map Prod.fst)
  tag : ∃ variant, m config.typeIdField = some (.tag variant)
  slot : ∀ slot ∈ merged.layout.slots, ∃ value, m slot.name = some (.content value)

/-- The slots of a variant hold these fields of it. -/
def MergedValue.Stores (m : MergedValue α) (merged : MergedType) (variant : String)
    (x : Record α) : Prop :=
  ∀ entry ∈ merged.layout.fieldsOf variant, m entry.2.name = (x entry.1).map .content

/-- The default of a merged type: no discriminant, and the default of its type in each slot. -/
def MergedType.defaultValue (merged : MergedType) (config : Config) (defaults : Ty → α) :
    MergedValue α :=
  Record.ofGiven ((config.typeIdField, .tag none) ::
    merged.layout.slots.map fun slot => (slot.name, .content (defaults slot.ty)))

/-! ## The routines -/

/-- What is assigned when the variant has these fields. -/
def SlotAssignment.cell? (x : Record α) : SlotAssignment → Option (Cell α)
  | .tag variant => some (.tag (some variant))
  | .slot _ field => (x field).map .content

namespace Conversion

/-- The places of a merged value with what is assigned to them. -/
def assigned? (conversion : Conversion) (assignments : List SlotAssignment) (x : Record α) :
    Option (List (String × Cell α)) :=
  assignments.mapM fun assignment =>
    (assignment.cell? x).map fun cell => ((conversion.placeAndValue assignment).1, cell)

/-- A field with the value in the slot that it is read from. -/
def read? (m : MergedValue α) (field slot : String) : Option (String × α) :=
  ((m slot).bind Cell.content?).map fun value => (field, value)

/-- Reads a variant that declares these fields from a merged value. -/
def runFromMerged (conversion : Conversion) (declared : List String) (m : MergedValue α) :
    Option (Record α) :=
  (conversion.reads.mapM fun entry => read? m entry.1 entry.2).bind (Record.literal? declared)

/-- Makes a merged value of the variant, with the default for what is not given. -/
def runToMerged (conversion : Conversion) (default : MergedValue α) (x : Record α) :
    Option (MergedValue α) :=
  (conversion.assigned? conversion.creates x).bind (Record.literalOver? default)

/-- Writes the variant over a merged value. -/
def runWriteInto (conversion : Conversion) (x : Record α) (m : MergedValue α) :
    Option (MergedValue α) :=
  (conversion.assigned? conversion.writes x).bind (Record.assignAll? m)

end Conversion

/-! ## The conversions of a merged type -/

/-- A variant of a merged type whose fields have distinct names, where the discriminant's field is
not named like a slot. -/
structure Convertible (config : Config) (merged : MergedType) (variant : Variant) : Prop where
  layout : merged.layout.Invariant merged.variants
  member : variant ∈ merged.variants
  distinct : (variant.fields.map VariantField.name).Nodup
  untagged : config.typeIdField ∉ merged.layout.slots.map Slot.name

/-- What the slots of a variant are given when the variant has these fields. -/
def SlotLayout.stored (layout : SlotLayout) (variant : String) (x : Record α) :
    List (String × Cell α) :=
  (layout.fieldsOf variant).filterMap fun (field, slot) =>
    (x field).map fun value => (slot.name, .content value)

/-- What a merged value is given by a variant with these fields. -/
def MergedType.assigned (merged : MergedType) (config : Config) (variant : Variant)
    (x : Record α) : List (String × Cell α) :=
  (config.typeIdField, .tag (some variant.name)) :: merged.layout.stored variant.name x

/-- The fields of the merged struct are the discriminant and the slots. -/
theorem MergedType.mergedStruct_names (merged : MergedType) (config : Config) :
    (merged.mergedStruct config).fields.map Prod.fst =
      config.typeIdField :: merged.layout.slots.map Slot.name := by
  rw [mergedStruct, List.map_cons, List.map_map]
  rfl

/-- The names of a variant's slots are names of slots of the layout. -/
theorem SlotLayout.fieldsOf_slotNames_subset (layout : SlotLayout) (variant : String) :
    (layout.fieldsOf variant).map (fun entry => entry.2.name) ⊆
      layout.slots.map Slot.name := by
  intro name listed
  obtain ⟨entry, member, rfl⟩ := List.mem_map.mp listed
  exact List.mem_map_of_mem (mem_slots_of_mem_fieldsOf member)

namespace Convertible

variable {config : Config} {merged : MergedType} {variant : Variant} {x : Record α}
  {m : MergedValue α}

/-- A variant is read from the slots of its fields. -/
theorem reads_eq (config : Config) (merged : MergedType) (variant : Variant) :
    (merged.conversion config variant).reads =
      (merged.layout.fieldsOf variant.name).map fun entry => (entry.1, entry.2.name) := rfl

/-- Each field that is stored has a value. -/
theorem total (convertible : Convertible config merged variant)
    (fields : x.HasFields (variant.fields.map VariantField.name)) :
    ∀ entry ∈ merged.layout.fieldsOf variant.name, (x entry.1).isSome := by
  intro entry listed
  rw [fields entry.1,
    ← convertible.layout.fieldsOf_names convertible.member convertible.distinct]
  exact List.mem_map_of_mem listed

/-- What is stored goes to the slots of the fields. -/
theorem stored_names (convertible : Convertible config merged variant)
    (fields : x.HasFields (variant.fields.map VariantField.name)) :
    (merged.layout.stored variant.name x).map Prod.fst =
      (merged.layout.fieldsOf variant.name).map fun entry => entry.2.name := by
  apply map_filterMap_of_forall
  intro entry listed
  obtain ⟨value, found⟩ := Option.isSome_iff_exists.mp (convertible.total fields entry listed)
  simp only [found, Option.map_some]

/-- No place of a merged value is assigned twice. -/
theorem assigned_nodup (convertible : Convertible config merged variant)
    (fields : x.HasFields (variant.fields.map VariantField.name)) :
    ((merged.assigned config variant x).map Prod.fst).Nodup := by
  rw [MergedType.assigned, List.map_cons, convertible.stored_names fields, List.nodup_cons]
  exact ⟨fun listed => convertible.untagged (SlotLayout.fieldsOf_slotNames_subset _ _ listed),
    convertible.layout.fieldsOf_slotNames_nodup convertible.member convertible.distinct⟩

/-- Only fields of the merged struct are assigned. -/
theorem assigned_present (convertible : Convertible config merged variant)
    (fields : x.HasFields (variant.fields.map VariantField.name)) :
    ∀ name ∈ (merged.assigned config variant x).map Prod.fst,
      name ∈ (merged.mergedStruct config).fields.map Prod.fst := by
  rw [MergedType.mergedStruct_names, MergedType.assigned, List.map_cons,
    convertible.stored_names fields]
  intro name listed
  exact List.cons_subset_cons _ (SlotLayout.fieldsOf_slotNames_subset _ _) listed

/-- Only fields that there are get assigned. -/
theorem assigned_isSome (convertible : Convertible config merged variant)
    (fields : x.HasFields (variant.fields.map VariantField.name)) (valid : m.IsOf merged config) :
    ∀ name ∈ (merged.assigned config variant x).map Prod.fst, (m name).isSome := by
  intro name listed
  exact (valid.fields name).mpr (convertible.assigned_present fields name listed)

/-- The values that the two writing routines assign. -/
theorem assigned?_eq (convertible : Convertible config merged variant)
    (fields : x.HasFields (variant.fields.map VariantField.name)) :
    (merged.conversion config variant).assigned? (merged.conversion config variant).writes x =
      some (merged.assigned config variant x) := by
  have slots : (merged.layout.fieldsOf variant.name).mapM (fun entry =>
      (x entry.1).map fun value => (entry.2.name, Cell.content value)) =
        some (merged.layout.stored variant.name x) := by
    apply mapM_eq_some_filterMap
    intro entry listed
    rw [Option.isSome_map]
    exact convertible.total fields entry listed
  simp only [Conversion.assigned?, MergedType.conversion, Conversion.placeAndValue,
    SlotAssignment.cell?, List.mapM_cons, List.mapM_map, Option.map_some, Option.map_map,
    Function.comp_def, slots]
  rfl

/-- **Writing over a merged value.** The discriminant and the slots of the variant are replaced. -/
theorem runWriteInto_eq (convertible : Convertible config merged variant)
    (fields : x.HasFields (variant.fields.map VariantField.name)) (valid : m.IsOf merged config) :
    (merged.conversion config variant).runWriteInto x m =
      some (Record.override m (merged.assigned config variant x)) := by
  rw [Conversion.runWriteInto, convertible.assigned?_eq fields, Option.bind_some]
  exact Record.assignAll?_eq (convertible.assigned_nodup fields)
    (convertible.assigned_isSome fields valid)

/-- **A fresh merged value.** The discriminant and the slots of the variant are given, and all else
is the default. -/
theorem runToMerged_eq (convertible : Convertible config merged variant)
    (fields : x.HasFields (variant.fields.map VariantField.name)) (valid : m.IsOf merged config) :
    (merged.conversion config variant).runToMerged m x =
      some (Record.override m (merged.assigned config variant x)) := by
  have creates : (merged.conversion config variant).creates =
      (merged.conversion config variant).writes := rfl
  rw [Conversion.runToMerged, creates, convertible.assigned?_eq fields, Option.bind_some]
  exact Record.literalOver?_eq (convertible.assigned_nodup fields)
    (convertible.assigned_isSome fields valid)

/-- **Reading a variant.** If the slots of the variant hold its fields, these are read. -/
theorem runFromMerged_eq (convertible : Convertible config merged variant)
    (fields : x.HasFields (variant.fields.map VariantField.name))
    (stored : m.Stores merged variant.name x) :
    (merged.conversion config variant).runFromMerged (variant.fields.map VariantField.name) m =
      some x := by
  have found : ∀ entry ∈ merged.layout.fieldsOf variant.name,
      Conversion.read? m entry.1 entry.2.name = (x entry.1).map fun value => (entry.1, value) := by
    intro entry listed
    obtain ⟨value, present⟩ := Option.isSome_iff_exists.mp (convertible.total fields entry listed)
    rw [Conversion.read?, stored entry listed, present]
    rfl
  have present : ∀ entry ∈ merged.layout.fieldsOf variant.name,
      (Conversion.read? m entry.1 entry.2.name).isSome := by
    intro entry listed
    rw [found entry listed, Option.isSome_map]
    exact convertible.total fields entry listed
  have given : (merged.conversion config variant).reads.mapM
      (fun entry => Conversion.read? m entry.1 entry.2) =
        some ((merged.layout.fieldsOf variant.name).filterMap fun entry =>
          (x entry.1).map fun value => (entry.1, value)) := by
    rw [reads_eq, List.mapM_map, ← List.filterMap_congr found]
    exact mapM_eq_some_filterMap present
  rw [Conversion.runFromMerged, given, Option.bind_some]
  apply Record.literal?_eq fields convertible.distinct
  · rw [← convertible.layout.fieldsOf_names convertible.member convertible.distinct]
    apply map_filterMap_of_forall
    intro entry listed
    obtain ⟨value, here⟩ := Option.isSome_iff_exists.mp (convertible.total fields entry listed)
    rw [here]
    rfl
  · intro given listed
    obtain ⟨entry, -, read⟩ := List.mem_filterMap.mp listed
    obtain ⟨value, here, rfl⟩ := Option.map_eq_some_iff.mp read
    exact here

/-- The slots of a variant hold a value for each of its fields. -/
theorem exists_stored (convertible : Convertible config merged variant)
    (valid : m.IsOf merged config) :
    ∃ x : Record α, x.HasFields (variant.fields.map VariantField.name) ∧
      m.Stores merged variant.name x := by
  have names := convertible.layout.fieldsOf_names convertible.member convertible.distinct
  have held : ∀ entry ∈ merged.layout.fieldsOf variant.name,
      ∃ value, m entry.2.name = some (.content value) :=
    fun entry listed => valid.slot entry.2 (SlotLayout.mem_slots_of_mem_fieldsOf listed)
  let given := (merged.layout.fieldsOf variant.name).filterMap fun entry =>
    Conversion.read? m entry.1 entry.2.name
  have givenNames : given.map Prod.fst = variant.fields.map VariantField.name := by
    rw [← names]
    apply map_filterMap_of_forall
    intro entry listed
    obtain ⟨value, here⟩ := held entry listed
    rw [Conversion.read?, here]
    rfl
  refine ⟨Record.ofGiven given, givenNames ▸ Record.hasFields_ofGiven given, ?_⟩
  intro entry listed
  obtain ⟨value, here⟩ := held entry listed
  have member : (entry.1, value) ∈ given := by
    refine List.mem_filterMap.mpr ⟨entry, listed, ?_⟩
    rw [Conversion.read?, here]
    rfl
  rw [here, Record.ofGiven_of_mem (givenNames ▸ convertible.distinct) member, Option.map_some]

end Convertible

end VariantMerge
