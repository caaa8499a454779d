import VariantMerge.Proofs.Generation.Names

/-!
# Conversions round trip

The routines are taken from the emitted code as assignments between fields and slots. A variant that they
write over a merged value, or turn into a fresh one, is read back as it was; the slots that it does not
claim keep their values, or hold their defaults (`Generation.Generates.conversions_round_trip`). Both rest
on one description of a merged value that a variant was written over: the discriminant names the variant
(`Convertible.override_tag`), its slots hold its fields (`Convertible.override_stores`), and all
others are as they were (`Convertible.override_unclaimed`).
-/

namespace VariantMerge

variable {α : Type*}

/-- A slot in which the variant stores a field. -/
def SlotLayout.Claims (layout : SlotLayout) (variant : String) (slot : Slot) : Prop :=
  ∃ field, layout.slotFor variant field = some slot

namespace Convertible

variable {config : Config} {merged : MergedType} {variant : Variant} {x : Record α}
  {m : MergedValue α}

/-- The variants of a generated type are convertible. -/
theorem of_generates {scan : ScanResult} {interface : Interface}
    {sources : List GeneratedSource}
    (generated : Generation.Generates config scan interface merged sources)
    (member : variant ∈ merged.variants)
    (distinct : (variant.fields.map VariantField.name).Nodup)
    (untagged : config.typeIdField ∉ merged.layout.slots.map Slot.name) :
    Convertible config merged variant :=
  ⟨SlotLayout.ofVariants_invariant generated.layout, member, distinct, untagged⟩

/-! ## A merged value that a variant was written over -/

/-- The discriminant names the variant that was written. -/
theorem override_tag (convertible : Convertible config merged variant)
    (fields : x.HasFields (variant.fields.map VariantField.name)) :
    Record.override m (merged.assigned config variant x) config.typeIdField =
      some (.tag (some variant.name)) :=
  Record.override_of_mem (convertible.assigned_nodup fields) List.mem_cons_self

/-- The slots hold the fields that were written. -/
theorem override_stores (convertible : Convertible config merged variant)
    (fields : x.HasFields (variant.fields.map VariantField.name)) :
    MergedValue.Stores (Record.override m (merged.assigned config variant x)) merged
      variant.name x := by
  intro entry listed
  obtain ⟨value, present⟩ := Option.isSome_iff_exists.mp (convertible.total fields entry listed)
  have stored : (entry.2.name, Cell.content value) ∈ merged.layout.stored variant.name x := by
    refine List.mem_filterMap.mpr ⟨entry, listed, ?_⟩
    simp only [present, Option.map_some]
  rw [present]
  exact Record.override_of_mem (convertible.assigned_nodup fields)
    (List.mem_cons_of_mem _ stored)

/-- No other slot is touched. -/
theorem override_unclaimed (convertible : Convertible config merged variant)
    (fields : x.HasFields (variant.fields.map VariantField.name)) {slot : Slot}
    (member : slot ∈ merged.layout.slots)
    (unclaimed : ¬ merged.layout.Claims variant.name slot) :
    Record.override m (merged.assigned config variant x) slot.name = m slot.name := by
  apply Record.override_of_notMem
  rw [MergedType.assigned, List.map_cons, convertible.stored_names fields, List.mem_cons]
  rintro (tagged | listed)
  · have named : slot.name = config.typeIdField := tagged
    exact convertible.untagged (named ▸ List.mem_map_of_mem member)
  · obtain ⟨⟨field, other⟩, claimed, named⟩ := List.mem_map.mp listed
    have same : other = slot := List.inj_on_of_nodup_map convertible.layout.indexed.name_nodup
      (SlotLayout.mem_slots_of_mem_fieldsOf claimed) member named
    subst same
    exact unclaimed ⟨field, (convertible.layout.mem_fieldsOf_iff convertible.member
      convertible.distinct).mp claimed⟩

/-- The merged value keeps the fields of the merged struct. -/
theorem override_isOf (convertible : Convertible config merged variant)
    (fields : x.HasFields (variant.fields.map VariantField.name)) (valid : m.IsOf merged config) :
    MergedValue.IsOf (Record.override m (merged.assigned config variant x)) merged config where
  fields := valid.fields.override (convertible.assigned_present fields)
  tag := ⟨some variant.name, convertible.override_tag fields⟩
  slot := by
    intro slot member
    by_cases claimed : merged.layout.Claims variant.name slot
    · obtain ⟨field, found⟩ := claimed
      have listed := (convertible.layout.mem_fieldsOf_iff convertible.member
        convertible.distinct).mpr found
      obtain ⟨value, present⟩ :=
        Option.isSome_iff_exists.mp (convertible.total fields (field, slot) listed)
      refine ⟨value, (convertible.override_stores fields (field, slot) listed).trans ?_⟩
      rw [present, Option.map_some]
    · rw [convertible.override_unclaimed fields member claimed]
      exact valid.slot slot member

/-- The variant is read back as it was written. -/
theorem runFromMerged_override (convertible : Convertible config merged variant)
    (fields : x.HasFields (variant.fields.map VariantField.name)) :
    (merged.conversion config variant).runFromMerged (variant.fields.map VariantField.name)
      (Record.override m (merged.assigned config variant x)) = some x :=
  convertible.runFromMerged_eq fields (convertible.override_stores fields)

end Convertible

/-! ## The default of a merged type -/

namespace MergedType

variable {config : Config} {merged : MergedType}

/-- A slot of the default holds the default of its type. -/
theorem defaultValue_slot (indexed : SlotLayout.Indexed merged.layout.slots)
    (untagged : config.typeIdField ∉ merged.layout.slots.map Slot.name) (defaults : Ty → α)
    {slot : Slot} (member : slot ∈ merged.layout.slots) :
    merged.defaultValue config defaults slot.name = some (.content (defaults slot.ty)) := by
  have names : (merged.layout.slots.map fun slot =>
      (slot.name, Cell.content (defaults slot.ty))).map Prod.fst =
        merged.layout.slots.map Slot.name := by
    rw [List.map_map]
    rfl
  apply Record.ofGiven_of_mem
  · rw [List.map_cons, names, List.nodup_cons]
    exact ⟨untagged, indexed.name_nodup⟩
  · exact List.mem_cons_of_mem _ (List.mem_map_of_mem member)

/-- The default has the fields of the merged struct. -/
theorem defaultValue_isOf (indexed : SlotLayout.Indexed merged.layout.slots)
    (untagged : config.typeIdField ∉ merged.layout.slots.map Slot.name) (defaults : Ty → α) :
    MergedValue.IsOf (merged.defaultValue config defaults) merged config where
  fields := by
    have fields := Record.hasFields_ofGiven ((config.typeIdField, Cell.tag none) ::
      merged.layout.slots.map fun slot => (slot.name, Cell.content (defaults slot.ty)))
    rw [List.map_cons, List.map_map] at fields
    rw [mergedStruct_names]
    exact fields
  tag := ⟨none, List.lookup_cons_self⟩
  slot := fun _ member => ⟨_, defaultValue_slot indexed untagged defaults member⟩

end MergedType

namespace Generation

namespace Generates

variable {config : Config} {units : List SourceUnit} {interface : Interface} {merged : MergedType}
  {sources : List GeneratedSource}

/-- **Conversions round trip.** Let the units be read from texts. For every variant of a generated type,
a source holds the code of its routines, which is read as assignments between fields and slots. For every
choice of the variant's fields, these have a result: reading a merged value that the variant was turned
into or written over gives the variant back. Both merged values carry the variant's tag and agree on the
slots that it claims; any other slot holds its default in the fresh value, and what it held before in the
other one. -/
theorem conversions_round_trip (read : ∀ unit ∈ units, unit.IsRead)
    (scanned : interface ∈ (ScanResult.ofUnits config.marker units).interfaces)
    (generated : Generates config (ScanResult.ofUnits config.marker units) interface merged sources)
    {variant : Variant} (member : variant ∈ merged.variants)
    (distinct : (variant.fields.map VariantField.name).Nodup)
    (untagged : config.typeIdField ∉ merged.layout.slots.map Slot.name)
    {x : Record α} (fields : x.HasFields (variant.fields.map VariantField.name))
    {prior : MergedValue α} (valid : prior.IsOf merged config) (defaults : Ty → α) :
    let code := (merged.conversion config variant).code
    let declared := variant.fields.map VariantField.name
    (∃ source ∈ sources, Code.text config.indent code = .ok source.text) ∧
    ∃ routines, merged.readConversion? config code = some routines ∧
      routines.variant = variant.name ∧
      ∃ fresh written,
        routines.runToMerged (merged.defaultValue config defaults) x = some fresh ∧
        routines.runWriteInto x prior = some written ∧
        routines.runFromMerged declared fresh = some x ∧
        routines.runFromMerged declared written = some x ∧
        fresh config.typeIdField = some (.tag (some variant.name)) ∧
        written config.typeIdField = some (.tag (some variant.name)) ∧
        ∀ slot ∈ merged.layout.slots,
          (merged.layout.Claims variant.name slot → fresh slot.name = written slot.name) ∧
          (¬ merged.layout.Claims variant.name slot →
            written slot.name = prior slot.name ∧
            fresh slot.name = some (.content (defaults slot.ty))) := by
  intro code declared
  have convertible := Convertible.of_generates generated member distinct untagged
  have indexed := convertible.layout.indexed
  have default := MergedType.defaultValue_isOf indexed untagged defaults
  have readBack := MergedType.readConversion?_code
    ((generated.isNamed read scanned).conversion convertible)
  refine ⟨generated.exists_variantSource member, _, readBack, rfl, _, _,
    convertible.runToMerged_eq fields default, convertible.runWriteInto_eq fields valid,
    convertible.runFromMerged_override fields, convertible.runFromMerged_override fields,
    convertible.override_tag fields, convertible.override_tag fields, ?_⟩
  intro slot present
  constructor
  · rintro ⟨field, found⟩
    have listed := (convertible.layout.mem_fieldsOf_iff member distinct).mpr found
    exact (convertible.override_stores fields (field, slot) listed).trans
      (convertible.override_stores fields (field, slot) listed).symm
  · intro unclaimed
    refine ⟨convertible.override_unclaimed fields present unclaimed, ?_⟩
    rw [convertible.override_unclaimed fields present unclaimed]
    exact MergedType.defaultValue_slot indexed untagged defaults present

end Generates

/-- The fields of a filled square with sides of this length. -/
def squareFields (side : Nat) : Record Nat :=
  .ofGiven [("0", 1), ("1", side)]

/-- A merged value that holds a circle with this radius. -/
def circleMerged (radius : Nat) : MergedValue Nat :=
  .ofGiven [("current_type_id", .tag (some "Circle")), ("f32_0", .content radius),
    ("bool_1", .content 0)]

/-- It has the fields of the merged shapes. -/
theorem circleMerged_isOf {merged : MergedType} (outlined : outline merged = shapesOutline)
    (radius : Nat) : (circleMerged radius).IsOf merged Config.default where
  fields := by
    rw [MergedType.mergedStruct_names, shapes_slots outlined]
    exact Record.hasFields_ofGiven _
  tag := ⟨some "Circle", rfl⟩
  slot := by
    intro slot member
    have named : slot.name ∈ ["f32_0", "bool_1"] :=
      shapes_slots outlined ▸ List.mem_map_of_mem member
    obtain first | later := List.mem_cons.mp named
    · exact ⟨radius, by rw [first]; rfl⟩
    · exact ⟨0, by rw [List.mem_singleton.mp later]; rfl⟩

/-- A square that is written over a circle. -/
theorem conversions_round_trip_square :
    ∃ units interface merged sources variant,
      (∀ unit ∈ units, SourceUnit.IsRead unit) ∧
      interface ∈ (ScanResult.ofUnits Config.default.marker units).interfaces ∧
      Generates .default (ScanResult.ofUnits Config.default.marker units) interface merged
        sources ∧
      variant ∈ merged.variants ∧ variant.fields.map VariantField.name = ["0", "1"] ∧
      (squareFields 4).HasFields ["0", "1"] ∧ (circleMerged 9).IsOf merged .default ∧
      ∃ routines written,
        merged.readConversion? .default (merged.conversion .default variant).code =
          some routines ∧
        routines.runWriteInto (squareFields 4) (circleMerged 9) = some written ∧
        routines.runFromMerged ["0", "1"] written = some (squareFields 4) := by
  obtain ⟨units, interface, merged, sources, read, scanned, generated, outlined⟩ := shapes_read
  obtain ⟨square, member, -, names⟩ :=
    exists_variant outlined (show ("Square", ["0", "1"]) ∈ shapesOutline.variants by decide)
  have distinct : (square.fields.map VariantField.name).Nodup := by
    rw [names]
    decide
  have untagged : Config.default.typeIdField ∉ merged.layout.slots.map Slot.name := by
    rw [shapes_slots outlined]
    decide
  have fields : (squareFields 4).HasFields ["0", "1"] := Record.hasFields_ofGiven _
  have given : (squareFields 4).HasFields (square.fields.map VariantField.name) := by
    rw [names]
    exact fields
  have valid := circleMerged_isOf outlined 9
  obtain ⟨-, routines, readBack, -, fresh, written, -, wrote, -, back, -⟩ :=
    generated.conversions_round_trip read scanned member distinct untagged given valid fun _ => 0
  refine ⟨units, interface, merged, sources, square, read, scanned, generated, member, names, fields,
    valid, routines, written, readBack, wrote, ?_⟩
  rw [← names]
  exact back

end Generation

end VariantMerge
