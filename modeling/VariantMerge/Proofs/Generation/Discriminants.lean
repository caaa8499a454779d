import VariantMerge.Proofs.Generation.Success

/-!
# One list of discriminants

What is emitted for an interface goes by one list of names: the structs that implement it, in the
order in which they were discovered. The enumeration has these members, every `match` has one arm
for each of them and one for no variant, and there is one source with conversions for each, which
tags with its own name. `MergedType.GoesBy` says so of a merged type, its emitted code and its
sources, and `Generation.emitted_goesBy_implementors` that it holds of every interface that
succeeds. That the variants of a merged type are these structs is
`Generation.Generates.variantNames_eq`; that no name occurs twice is what the layout checks.
-/

namespace VariantMerge

/-- The names of the structs that implement an interface, but for one that is called like the merged
type, in order of discovery. -/
def ScanResult.implementorNames (scan : ScanResult) (interface mergedName : String) :
    List String :=
  (scan.structs.filter fun decl => interface ∈ decl.claims ∧ decl.name ≠ mergedName).map
    StructDecl.name

/-! ## What emitted code says -/

/-- An arm of a `match` with this pattern. One that does nothing is a single line. -/
def Code.IsArm (pattern : String) : Code → Prop
  | .line text => text = pattern ++ " => \x7b\x7d"
  | .scope header _ => header = pattern ++ " =>"
  | .blank => False

namespace Dispatch

/-- The pattern of a merged value that holds a variant. -/
def variantPattern (typeIdName variant : String) : String :=
  someVariant ++ "(" ++ typeIdName ++ "::" ++ variant ++ ")"

/-- The patterns that tell the variants of these names from each other and from no variant. -/
def patterns (typeIdName : String) (names : List String) : List String :=
  names.map (variantPattern typeIdName) ++ [noVariant]

end Dispatch

/-- An emitted method with the head of `method`, whose body is a `match` on the discriminant with
one arm for each of the names, in order, and one for no variant. -/
structure DispatchMethod.BranchesOn (typeIdField typeIdName : String) (names : List String)
    (method : Method) (emitted : DispatchMethod) : Prop where
  head : emitted.head = method.headText
  arms : emitted.arms.map Arm.variant = names
  body : ∃ body, emitted.code typeIdField typeIdName =
      .scope emitted.head [.scope ("match self." ++ typeIdField) body] ∧
    List.Forall₂ Code.IsArm (Dispatch.patterns typeIdName names) body

/-- The variants that assignments tag a merged value with. -/
def SlotAssignment.tags (assignments : List SlotAssignment) : List String :=
  assignments.filterMap fun assignment =>
    match assignment with
    | .tag variant => some variant
    | .slot _ _ => none

/-- A line of an emitted routine that gives one of the slots a copy of a field, where `assigns` says
how such a line is written. -/
def Code.CopiesTo (slots : List Slot) (assigns : String → String → String) (line : Code) : Prop :=
  ∃ slot ∈ slots, ∃ field, line = .line (assigns slot.name (Conversion.cloneOf ("self." ++ field)))

/-- Both emitted routines that write to a merged value tag it with this name. The one that makes a
merged value starts with the field for the discriminant, goes on with slots only, and takes all else from
the default. The other one starts with an assignment to that field and goes on with slots only. -/
structure MergedType.Tags (merged : MergedType) (config : Config) (conversion : Conversion)
    (name : String) (functions : List Code) : Prop where
  toMerged : ∃ copies, .scope conversion.toMergedHead [.scope merged.name
      (.line (config.typeIdField ++ ": " ++ Dispatch.variantPattern merged.typeIdName name ++ ",") ::
        copies ++ [.line (".." ++ Dispatch.defaultValue)])] ∈ functions ∧
    ∀ copy ∈ copies, copy.CopiesTo merged.layout.slots fun place value =>
      place ++ ": " ++ value ++ ","
  writeInto : ∃ copies, .scope conversion.writeIntoHead
      (.line ("merged." ++ config.typeIdField ++ " = " ++
        Dispatch.variantPattern merged.typeIdName name ++ ";") :: copies) ∈ functions ∧
    ∀ copy ∈ copies, copy.CopiesTo merged.layout.slots fun place value =>
      "merged." ++ place ++ " = " ++ value ++ ";"

/-- A source with the conversions of the variant of this name, both of which tag with that name: in
what is assigned, and in the emitted functions. -/
def GeneratedSource.Converts (config : Config) (merged : MergedType) (name : String)
    (source : GeneratedSource) : Prop :=
  source.kind = .variant ∧ ∃ variant ∈ merged.variants, variant.name = name ∧
    let conversion := merged.conversion config variant
    Code.text config.indent conversion.code = .ok source.text ∧
      conversion.variant = name ∧
      SlotAssignment.tags conversion.creates = [name] ∧
      SlotAssignment.tags conversion.writes = [name] ∧
      ∃ functions, .scope ("impl " ++ name) functions ∈ conversion.code ∧
        merged.Tags config conversion name functions

/-- All that is emitted for a merged type goes by these names. -/
structure MergedType.GoesBy (config : Config) (merged : MergedType)
    (sources : List GeneratedSource) (names : List String) : Prop where
  nonempty : names ≠ []
  distinct : names.Nodup
  /-- The enumeration of the discriminant. -/
  enumeration : Code.scope
      (SourceWriter.joinWords [merged.visibility, "enum", merged.typeIdName])
      (names.map fun name => .line (name ++ ",")) ∈ merged.declarationCode config
  members : (merged.discriminant config).members = names
  /-- No two arms of a `match` have one pattern. -/
  patterns : (Dispatch.patterns merged.typeIdName names).Nodup
  /-- Every method of every trait of the hierarchy. -/
  branches : List.Forall₂ (fun declared impl => impl.interface = declared.name ∧
      List.Forall₂
        (DispatchMethod.BranchesOn config.typeIdField merged.typeIdName names)
        (declared.members.flatMap Member.methods) impl.methods)
    merged.members.traits merged.dispatchImpls
  /-- The source of the merged type, and then one for each name. -/
  sources : ∃ first rest, sources = first :: rest ∧ first.kind = .merged ∧
    Code.text config.indent (merged.declarationCode config ++
      merged.dispatchImpls.flatMap fun impl =>
        impl.code config.typeIdField merged.typeIdName) = .ok first.text ∧
    List.Forall₂ (GeneratedSource.Converts config merged) names rest
  /-- The merged struct, with a field for the discriminant and one for each slot. -/
  struct : Code.scope
      (SourceWriter.visibilityPrefix merged.visibility ++ "struct " ++ merged.name)
      (((config.typeIdField, "::core::option::Option<" ++ merged.typeIdName ++ ">") ::
          merged.layout.slots.map fun slot => (slot.name, slot.ty.text)).map
        fun field => .line (SourceWriter.fieldText "pub" field.1 field.2)) ∈
    merged.declarationCode config
  indices : merged.layout.slots.map Slot.index = List.range merged.layout.slots.length

/-! ## Names -/

/-- The structs that implement an interface are its variants by name. -/
theorem ScanResult.implementorNames_eq (scan : ScanResult) (interface mergedName : String) :
    scan.implementorNames interface mergedName =
      (scan.variantsOf interface mergedName).map StructDecl.name := by
  unfold implementorNames variantsOf
  congr 2
  funext decl
  rw [Bool.eq_iff_iff]
  simp

/-- The variants of a merged type are the structs that implement the interface. -/
theorem Generation.Generates.variantNames_eq {config : Config} {scan : ScanResult}
    {interface : Interface} {merged : MergedType} {sources : List GeneratedSource}
    (generated : Generates config scan interface merged sources) :
    merged.variants.map Variant.name = scan.implementorNames interface.name merged.name := by
  rw [ScanResult.implementorNames_eq]
  have made := Except.mapM_eq_ok_iff.mp generated.variants
  symm
  rw [← List.forall₂_eq_eq_eq, List.forall₂_map_left_iff, List.forall₂_map_right_iff]
  exact made.imp fun _ _ read => (Variant.ofStruct_declared read).1.symm

/-- Different variants have different patterns. -/
theorem Dispatch.variantPattern_injective (typeIdName : String) :
    Function.Injective (variantPattern typeIdName) := by
  intro first second same
  have texts := congrArg String.toList same
  simp only [variantPattern, String.toList_append, List.append_assoc] at texts
  exact String.toList_inj.mp (by simpa using texts)

/-- Different variants have different patterns, and none has that of no variant. -/
theorem Dispatch.patterns_nodup (typeIdName : String) {names : List String}
    (distinct : names.Nodup) : (patterns typeIdName names).Nodup := by
  rw [patterns, List.nodup_append]
  refine ⟨distinct.map (variantPattern_injective typeIdName), List.nodup_singleton _, ?_⟩
  intro pattern member other none_
  obtain ⟨name, -, rfl⟩ := List.mem_map.mp member
  rw [List.mem_singleton.mp none_]
  intro same
  have texts := congrArg String.toList same
  simp [variantPattern, someVariant, noVariant] at texts

/-! ## Emitted code -/

/-- The fallback is the arm for no variant. -/
theorem Fallback.code_isArm (fallback : Fallback) :
    fallback.code.IsArm Dispatch.noVariant := by
  unfold Fallback.code
  split <;> rfl

/-- The method that dispatches to another one branches on all variants. -/
theorem Method.dispatch_branchesOn (method : Method) (routines : ConversionNames)
    (interface typeIdField typeIdName : String) (names : List String) :
    (method.dispatch routines interface names).BranchesOn typeIdField typeIdName names
      method where
  head := rfl
  arms := by
    rw [dispatch, List.map_map]
    exact List.map_id names
  body := by
    refine ⟨_, rfl, List.rel_append ?_ (.cons (Fallback.code_isArm _) .nil)⟩
    rw [dispatch, List.map_map, List.forall₂_map_left_iff, List.forall₂_map_right_iff]
    refine List.forall₂_same.mpr fun variant _ => ?_
    change _ ++ (")" ++ " =>") = Dispatch.variantPattern typeIdName variant ++ " =>"
    rw [← String.append_assoc]
    rfl

/-- The assignments of both writing routines tag with the variant's own name. -/
theorem MergedType.tags_conversion (merged : MergedType) (config : Config) (variant : Variant) :
    SlotAssignment.tags (merged.conversion config variant).writes = [variant.name] := by
  have slots (entries : List (String × String)) :
      SlotAssignment.tags (entries.map fun entry => .slot entry.2 entry.1) = [] := by
    rw [SlotAssignment.tags, List.filterMap_map]
    exact List.filterMap_eq_nil_iff.mpr fun _ _ => rfl
  exact congrArg (variant.name :: ·) (slots _)

/-- What the writing routines assign after the discriminant are slots that the variant's fields were
given. -/
theorem MergedType.copiesTo_slots (merged : MergedType) (variant : String)
    (assigns : String → String → String) :
    ∀ copy ∈ (merged.layout.fieldsOf variant).map (fun entry =>
        Code.line (assigns entry.2.name (Conversion.cloneOf ("self." ++ entry.1)))),
      copy.CopiesTo merged.layout.slots assigns := by
  intro copy listed
  obtain ⟨⟨field, slot⟩, member, rfl⟩ := List.mem_map.mp listed
  exact ⟨slot, SlotLayout.mem_slots_of_mem_fieldsOf member, field, rfl⟩

/-- The functions that are emitted for a variant tag with the variant's own name. -/
theorem MergedType.conversion_tags (merged : MergedType) (config : Config) (variant : Variant) :
    let conversion := merged.conversion config variant
    ∃ functions, .scope ("impl " ++ variant.name) functions ∈ conversion.code ∧
      merged.Tags config conversion variant.name functions := by
  intro conversion
  refine ⟨_, List.mem_append_left _ (List.mem_cons_of_mem _ List.mem_cons_self),
    ⟨_, ?_, merged.copiesTo_slots variant.name _⟩, ⟨_, ?_, merged.copiesTo_slots variant.name _⟩⟩
  · refine List.mem_cons_of_mem _ (List.mem_cons_of_mem _ (List.mem_cons.mpr (.inl ?_)))
    simp only [conversion, Conversion.toMergedCode, MergedType.conversion, List.map_cons, List.map_map]
    rfl
  · refine List.mem_cons_of_mem _ (List.mem_cons_of_mem _ (List.mem_cons_of_mem _
      (List.mem_cons_of_mem _ (List.mem_singleton.mpr ?_))))
    simp only [conversion, Conversion.writeIntoCode, MergedType.conversion, List.map_cons, List.map_map]
    rfl

namespace Generation

variable {config : Config} {scan : ScanResult} {interface : Interface} {merged : MergedType}
  {sources : List GeneratedSource}

/-- A variant's source holds its own conversions. -/
theorem variantSource_converts {variant : Variant} {source : GeneratedSource}
    (member : variant ∈ merged.variants)
    (written : variantSource config scan merged variant = .ok source) :
    source.Converts config merged variant.name := by
  obtain ⟨text, emitted, same⟩ := variantSource_eq_ok_iff.mp written
  cases same
  exact ⟨rfl, variant, member, rfl, emitted, rfl, merged.tags_conversion config variant,
    merged.tags_conversion config variant, merged.conversion_tags config variant⟩

/-- A generated type goes by the names of its variants. -/
theorem Generates.goesBy (generated : Generates config scan interface merged sources) :
    merged.GoesBy config sources (merged.variants.map Variant.name) := by
  have valid := SlotLayout.ofVariants_invariant generated.layout
  obtain ⟨first, rest, written, others, same⟩ := sourcesOf_eq_ok_iff.mp generated.sources
  obtain ⟨text, emitted, made⟩ := mergedSource_eq_ok_iff.mp written
  cases made
  refine ⟨?_, valid.distinct, ?_, rfl, Dispatch.patterns_nodup _ valid.distinct, ?_,
    ⟨_, rest, same, rfl, emitted, ?_⟩, ?_, valid.indexed⟩
  · exact fun empty => generated.nonempty (List.map_eq_nil_iff.mp empty)
  · refine List.mem_append_left _ (List.mem_cons_of_mem _ (List.mem_append_right _ ?_))
    rw [List.mem_singleton]
    rfl
  · rw [MergedType.dispatchImpls, List.forall₂_map_right_iff]
    refine List.forall₂_same.mpr fun declared _ => ⟨rfl, ?_⟩
    rw [List.forall₂_map_right_iff]
    exact List.forall₂_same.mpr fun method _ => method.dispatch_branchesOn ..
  · rw [List.forall₂_map_left_iff]
    have listed : List.Forall₂ (fun variant source => variant ∈ merged.variants ∧
        variantSource config scan merged variant = .ok source) merged.variants rest :=
      (List.forall₂_and_left _ _).mpr ⟨fun _ member => member, others⟩
    exact listed.imp fun _ _ made => variantSource_converts made.1 made.2
  · refine List.mem_append_right _ (List.mem_cons_of_mem _ (List.mem_cons_of_mem _
      (List.mem_append_right _ ?_)))
    rw [List.mem_singleton]
    rfl

/-- **One list of discriminants.** Whenever an interface succeeds with sources, these are those of a
merged type, and the structs that implement the interface are what all of its enumeration, its
dispatch and its conversions go by, in the order in which they were discovered. -/
theorem emitted_goesBy_implementors (succeeded : (ofInterface config scan interface).outcome =
    .ok sources) (emitted : sources ≠ []) :
    ∃ merged, Generates config scan interface merged sources ∧
      merged.GoesBy config sources (scan.implementorNames interface.name merged.name) := by
  obtain ⟨_, -, -, none_⟩ | ⟨merged, generated⟩ := ofInterface_eq_ok_iff.mp succeeded
  · exact absurd none_ emitted
  · exact ⟨merged, generated, generated.variantNames_eq ▸ generated.goesBy⟩

/-- The shapes go by their three names. -/
theorem emitted_goesBy_implementors_shapes :
    ∃ sources, (ofInterface Config.default shapes shape).outcome = .ok sources ∧ sources ≠ [] ∧
      ∃ merged, Generates Config.default shapes shape merged sources ∧
        merged.GoesBy Config.default sources ["Circle", "Square", "Origin"] := by
  obtain ⟨sources, generated⟩ := generates_shapes
  have succeeded : (ofInterface Config.default shapes shape).outcome = .ok sources :=
    ofInterface_eq_ok_iff.mpr (.inr ⟨shapeMerged, generated⟩)
  have emitted : sources ≠ [] := by
    obtain ⟨first, rest, -, -, rfl⟩ := sourcesOf_eq_ok_iff.mp generated.sources
    exact List.cons_ne_nil first rest
  obtain ⟨merged, same, goes⟩ := emitted_goesBy_implementors succeeded emitted
  refine ⟨sources, succeeded, emitted, merged, same, ?_⟩
  have name : merged.name = "Shape" := (Except.ok.inj same.name).symm
  rw [name] at goes
  exact goes

end Generation

end VariantMerge
