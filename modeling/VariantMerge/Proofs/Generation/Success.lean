import VariantMerge.Proofs.Emit.Trees
import VariantMerge.Proofs.Layout.Soundness

/-!
# Interfaces that generate

`Generation.Generates` says what it takes to generate an interface: its merged type has the
variants found for it, the layout of their fields and the members of its hierarchy, and all
sources could be written. An interface succeeds exactly when it generates or has no variants
(`Generation.ofInterface_eq_ok_iff`), so what follows from `Generates` holds of every merged type
of a pass.
-/

namespace VariantMerge

/-- A variant is known by the name and module of its struct. -/
theorem Variant.ofStruct_declared {item : StructItem} {module : ModulePath} {variant : Variant}
    (made : ofStruct item module = .ok variant) :
    variant.name = item.name ∧ variant.module = module := by
  unfold ofStruct at made
  split at made
  · cases made
    exact ⟨rfl, rfl⟩
  · cases made

/-- The fields of a variant are those that its struct declares. -/
theorem Variant.ofStruct_fields {item : StructItem} {module : ModulePath} {variant : Variant}
    (made : ofStruct item module = .ok variant) : variant.fields = (fieldsOf item.fields).2 := by
  unfold ofStruct at made
  split at made
  · cases made
    rfl
  · cases made

namespace Pass

/-- What a computation comes to, apart from its events. -/
def outcome (pass : Pass α) : Except Failure α :=
  pass.run.value

@[simp] theorem outcome_pure (value : α) : (pure value : Pass α).outcome = .ok value := rfl

@[simp] theorem outcome_ofExcept (result : Except Failure α) :
    (Pass.ofExcept result).outcome = result := rfl

@[simp] theorem outcome_tell (event : Event) : (Pass.tell event).outcome = .ok () := rfl

@[simp] theorem outcome_mk (logged : Logged (Except Failure α)) :
    Pass.outcome (ExceptT.mk logged) = logged.value := rfl

@[simp] theorem outcome_bind (pass : Pass α) (next : α → Pass β) :
    (pass >>= next).outcome = pass.outcome.bind fun value => (next value).outcome := by
  change (ExceptT.bindCont next pass.run.value).value = pass.run.value.bind _
  cases pass.run.value <;> rfl

end Pass

namespace Generation

variable {config : Config} {scan : ScanResult} {interface : Interface}

/-- An interface is generated as a merged type with these sources. -/
structure Generates (config : Config) (scan : ScanResult) (interface : Interface)
    (merged : MergedType) (sources : List GeneratedSource) : Prop where
  name : MergedType.nameFor interface.name config.interfacePrefix = .ok merged.name
  variants : (scan.variantsOf interface.name merged.name).mapM
    (fun decl => Variant.ofStruct decl.item decl.module) = .ok merged.variants
  nonempty : merged.variants ≠ []
  members : (Hierarchy.collect scan interface).outcome = .ok merged.members
  layout : SlotLayout.ofVariants merged.variants = .ok merged.layout
  places : checkPlaces config interface merged.variants merged.members = .ok ()
  typeIdName : merged.typeIdName = merged.name ++ config.typeIdSuffix
  interfaceName : merged.interface = interface.name
  module : merged.module = interface.module
  visibility : merged.visibility = visibilityFor config interface
  sources : sourcesOf config scan merged = .ok sources

/-- What it takes to build a merged type. -/
theorem mergedType_eq_ok_iff {name : String} {variants : List Variant} {merged : MergedType} :
    (mergedType config scan interface name variants).outcome = .ok merged ↔
      (Hierarchy.collect scan interface).outcome = .ok merged.members ∧
      SlotLayout.ofVariants variants = .ok merged.layout ∧
      checkPlaces config interface variants merged.members = .ok () ∧
      merged = {
        name
        typeIdName := name ++ config.typeIdSuffix
        interface := interface.name
        module := interface.module
        visibility := visibilityFor config interface
        variants
        layout := merged.layout
        members := merged.members } := by
  simp only [mergedType, Pass.outcome_bind, Pass.outcome_mk, Pass.outcome_ofExcept,
    Pass.outcome_tell, Pass.outcome_pure, Except.bind_eq_ok_iff, Except.ok.injEq]
  constructor
  · rintro ⟨members, collected, _, -, layout, built, _, -, _, placed, rfl⟩
    exact ⟨collected, built, placed, rfl⟩
  · rintro ⟨collected, built, placed, same⟩
    exact ⟨_, collected, (), trivial, _, built, (), trivial, (), placed, same.symm⟩

/-- **What success means.** An interface succeeds without sources if it has no variants, and
otherwise exactly when it is generated with a merged type. -/
theorem ofInterface_eq_ok_iff {sources : List GeneratedSource} :
    (ofInterface config scan interface).outcome = .ok sources ↔
      (∃ name, MergedType.nameFor interface.name config.interfacePrefix = .ok name ∧
        scan.variantsOf interface.name name = [] ∧ sources = []) ∨
      ∃ merged, Generates config scan interface merged sources := by
  simp only [ofInterface, Pass.outcome_bind, Pass.outcome_ofExcept, Except.bind_eq_ok_iff]
  constructor
  · rintro ⟨name, named, variants, read, succeeded⟩
    split at succeeded
    next empty =>
      simp only [Pass.outcome_bind, Pass.outcome_tell, Pass.outcome_pure,
        Except.bind_eq_ok_iff, Except.ok.injEq] at succeeded
      obtain ⟨_, -, rfl⟩ := succeeded
      rw [List.isEmpty_iff.mp empty, Except.mapM_eq_ok_iff, List.forall₂_nil_right_iff] at read
      exact .inl ⟨name, named, read, rfl⟩
    next nonempty =>
      simp only [Pass.outcome_bind, Pass.outcome_ofExcept, Pass.outcome_tell, Pass.outcome_pure,
        Except.bind_eq_ok_iff, Except.ok.injEq] at succeeded
      obtain ⟨merged, built, _, written, _, -, rfl⟩ := succeeded
      obtain ⟨collected, placed, checked, same⟩ := mergedType_eq_ok_iff.mp built
      cases merged
      obtain ⟨rfl, rfl, rfl, rfl, rfl, rfl, -, -⟩ := MergedType.mk.inj same
      have some_variant := fun empty => nonempty (List.isEmpty_iff.mpr empty)
      exact .inr ⟨_, named, read, some_variant, collected, placed, checked, rfl, rfl, rfl, rfl,
        written⟩
  · rintro (⟨name, named, absent, rfl⟩ | ⟨merged, generates⟩)
    · exact ⟨name, named, [], by rw [absent]; rfl, rfl⟩
    · refine ⟨_, generates.name, _, generates.variants, ?_⟩
      rw [if_neg fun empty => generates.nonempty (List.isEmpty_iff.mp empty)]
      simp only [Pass.outcome_bind, Pass.outcome_ofExcept, Pass.outcome_tell, Pass.outcome_pure,
        Except.bind_eq_ok_iff, Except.ok.injEq]
      refine ⟨merged, mergedType_eq_ok_iff.mpr ?_, _, generates.sources, (), trivial, rfl⟩
      refine ⟨generates.members, generates.layout, generates.places, ?_⟩
      rw [← generates.typeIdName, ← generates.interfaceName, ← generates.module,
        ← generates.visibility]

/-! ## Sources -/

/-- The sources of a merged type: one for the type, and one for each variant. -/
theorem sourcesOf_eq_ok_iff {merged : MergedType} {sources : List GeneratedSource} :
    sourcesOf config scan merged = .ok sources ↔
      ∃ first rest, mergedSource config scan merged = .ok first ∧
        List.Forall₂ (fun variant source => variantSource config scan merged variant = .ok source)
          merged.variants rest ∧ sources = first :: rest := by
  change (mergedSource config scan merged).bind (fun first =>
    (merged.variants.mapM (variantSource config scan merged)).bind fun rest =>
      .ok (first :: rest)) = .ok sources ↔ _
  simp only [Except.bind_eq_ok_iff, Except.mapM_eq_ok_iff, Except.ok.injEq]
  constructor
  · rintro ⟨first, written, rest, others, rfl⟩
    exact ⟨first, rest, written, others, rfl⟩
  · rintro ⟨first, rest, written, others, rfl⟩
    exact ⟨first, written, rest, others, rfl⟩

/-- All sources of a merged type can be written if their indentation can be built. -/
theorem exists_sourcesOf {unit : String} (built : config.indent.unit? = some unit)
    (scan : ScanResult) (merged : MergedType) :
    ∃ sources, sourcesOf config scan merged = .ok sources := by
  obtain ⟨first, written⟩ : ∃ first, mergedSource config scan merged = .ok first := by
    rw [mergedSource_eq, Code.text_eq_ok built]
    exact ⟨_, rfl⟩
  have each : ∀ variant, ∃ source, variantSource config scan merged variant = .ok source := by
    intro variant
    rw [variantSource_eq, Code.text_eq_ok built]
    exact ⟨_, rfl⟩
  choose source others using each
  refine ⟨first :: merged.variants.map source,
    sourcesOf_eq_ok_iff.mpr ⟨first, _, written, ?_, rfl⟩⟩
  exact List.forall₂_map_right_iff.mpr (List.forall₂_same.mpr fun variant _ => others variant)

/-- The text of the source with the dispatch of a generated type. -/
theorem Generates.exists_mergedSource {merged : MergedType} {sources : List GeneratedSource}
    (generated : Generates config scan interface merged sources) :
    ∃ source ∈ sources, Code.text config.indent
      (merged.declarationCode config ++ merged.dispatchCode config) = .ok source.text := by
  obtain ⟨first, rest, written, -, rfl⟩ := sourcesOf_eq_ok_iff.mp generated.sources
  obtain ⟨text, emitted, same⟩ := mergedSource_eq_ok_iff.mp written
  cases same
  exact ⟨_, List.mem_cons_self, emitted⟩

/-- The text of the source with the conversions of a variant of a generated type. -/
theorem Generates.exists_variantSource {merged : MergedType} {sources : List GeneratedSource}
    (generated : Generates config scan interface merged sources) {variant : Variant}
    (member : variant ∈ merged.variants) :
    ∃ source ∈ sources,
      Code.text config.indent (merged.conversion config variant).code = .ok source.text := by
  obtain ⟨first, rest, -, written, rfl⟩ := sourcesOf_eq_ok_iff.mp generated.sources
  obtain ⟨source, listed, made⟩ := exists_of_forall₂ written member
  obtain ⟨text, emitted, same⟩ := variantSource_eq_ok_iff.mp made
  cases same
  exact ⟨_, List.mem_cons_of_mem _ listed, emitted⟩

/-! ## An interface with three variants -/

/-- A trait with a method that reads a shape and one that changes it. -/
def shapeTrait : TraitItem where
  attributes := []
  visibility := .everywhere
  isUnsafe := false
  isAuto := false
  name := "IShape"
  generics := .none
  supertraits := []
  trailing := false
  entries :=
    [.method [] ⟨false, false, false, none, "area", .none,
        [.receiver ⟨[], some none, false, none⟩], false, none, some (.named "f32")⟩ none,
      .method [] ⟨false, false, false, none, "grow", .none,
        [.receiver ⟨[], some none, true, none⟩,
          .typed [] (.binding "by" [.word "by"]) (.named "f32"),
          .typed [] (.binding "hit" [.word "hit"]) (.reference none true (.named "bool"))],
        false, none, some (.named "bool")⟩ none]

def shape : Interface := ⟨⟨.root, shapeTrait⟩, .absent⟩

/-- A shape that is declared as a struct with these fields. -/
def shapeStruct (name : String) (fields : FieldList) : StructDecl :=
  ⟨.root, ⟨[], .everywhere, name, .none, fields⟩, ["IShape"]⟩

/-- Three shapes: one with named fields, a tuple, and one without fields. -/
def shapes : ScanResult where
  interfaces := [shape]
  traits := [shape.toTraitDecl]
  structs :=
    [shapeStruct "Circle" (.named [⟨[], .inherited, some "radius", .named "f32"⟩] false),
      shapeStruct "Square" (.tuple [⟨[], .inherited, none, .named "bool"⟩,
        ⟨[], .inherited, none, .named "f32"⟩] false),
      shapeStruct "Origin" .unit]
  modules := [(.root, ⟨[], []⟩)]

def areaMethod : Method :=
  ⟨"area", .shared, "&self", [], some (.named "f32"), .none, false⟩

def growMethod : Method where
  name := "grow"
  receiver := .exclusive
  receiverText := "&mut self"
  params :=
    [⟨"by", .named "f32", .value⟩, ⟨"hit", .reference none true (.named "bool"), .exclusive⟩]
  output := some (.named "bool")
  generics := .none
  isUnsafe := false

def shapeMembers : TraitMembers :=
  ⟨"IShape", .root, [.method areaMethod, .method growMethod]⟩

/-- The merged type of the shapes. -/
def shapeMerged : MergedType where
  name := "Shape"
  typeIdName := "ShapeTypeId"
  interface := "IShape"
  module := .root
  visibility := "pub"
  variants :=
    [⟨"Circle", .root, .named, [⟨"radius", .named "f32"⟩]⟩,
      ⟨"Square", .root, .tuple, [⟨"0", .named "bool"⟩, ⟨"1", .named "f32"⟩]⟩,
      ⟨"Origin", .root, .unit, []⟩]
  layout :=
    ⟨[⟨0, .named "f32", [("Circle", "radius"), ("Square", "1")]⟩,
        ⟨1, .named "bool", [("Square", "0")]⟩],
      [("Circle", [("radius", 0)]), ("Square", [("0", 1), ("1", 0)]), ("Origin", [])]⟩
  members := ⟨[shapeMembers]⟩

theorem generates_shapes :
    ∃ sources, Generates Config.default shapes shape shapeMerged sources := by
  have built : Config.default.indent.unit? = some "    " := rfl
  obtain ⟨sources, written⟩ := exists_sourcesOf built shapes shapeMerged
  exact ⟨sources, rfl, rfl, List.cons_ne_nil _ _, rfl, rfl, rfl, rfl, rfl, rfl, rfl, written⟩

end Generation

end VariantMerge
