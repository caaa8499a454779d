import VariantMerge.Proofs.Generation.Attribution
import VariantMerge.Proofs.Scan.Attributes

/-!
# Interfaces are isolated from each other

A pass adds up what its interfaces contribute, each on its own. `Generation.Contributes` says what a
contribution can be: all sources of a merged type, nothing for an interface without variants, or one
diagnostic that names the interface and no source (`Generation.contribution_contributes`). A
contribution is made from the interface, the structs, the modules and the traits without their
attributes (`Generation.contribution_agrees`), so it does not matter which other traits are marked
(`Generation.run_isolated`).
-/

namespace VariantMerge

/-! ## What an interface depends on -/

namespace Hierarchy

variable {scan other : ScanResult}

/-- Traits that differ only in their attributes have the same members, and so have their
hierarchies. -/
theorem visit_agrees (agrees : ScanResult.Agrees scan other) (interface : String) (depth : Nat)
    {decl otherDecl : TraitDecl} (same : decl.bare = otherDecl.bare)
    (found : List TraitMembers) :
    visit scan interface depth decl found = visit other interface depth otherDecl found := by
  induction depth generalizing decl otherDecl found with
  | zero => rfl
  | succ depth ih =>
      have name : decl.bare.name = otherDecl.bare.name := congrArg TraitDecl.name same
      have own : TraitMembers.ofTrait interface decl.bare =
          TraitMembers.ofTrait interface otherDecl.bare := congrArg _ same
      have bounds : decl.bare.item.supertraits = otherDecl.bare.item.supertraits :=
        congrArg (fun decl => decl.item.supertraits) same
      change decl.name = otherDecl.name at name
      change TraitMembers.ofTrait interface decl = TraitMembers.ofTrait interface otherDecl at own
      change decl.item.supertraits = otherDecl.item.supertraits at bounds
      rw [visit, visit, name, own, bounds]
      congr 3
      funext own
      congr 1
      funext found bound
      cases required? bound with
      | none => rfl
      | some segment =>
          have parents := agrees.findTrait_bare segment.name
          cases here : scan.findTrait segment.name with
          | none =>
              rw [here, Option.map_none, eq_comm, Option.map_eq_none_iff] at parents
              simp only [here, parents]
          | some parent =>
              rw [here, Option.map_some, eq_comm, Option.map_eq_some_iff] at parents
              obtain ⟨otherParent, there, alike⟩ := parents
              simp only [here, there, ih alike.symm]

theorem collect_agrees (agrees : ScanResult.Agrees scan other) (interface : Interface) :
    collect scan interface = collect other interface := by
  have count : scan.traits.length = other.traits.length := by
    simpa only [List.length_map] using congrArg List.length agrees.traits
  rw [collect, collect, count, visit_agrees agrees interface.name _ rfl]

end Hierarchy

namespace Generation

variable {config : Config} {scan other : ScanResult}

/-- A contribution is made from the members of the hierarchy, the variants and the imports that
have to be named. -/
theorem contribution_congr {interface : Interface}
    (members : Hierarchy.collect scan interface = Hierarchy.collect other interface)
    (variants : ∀ name, (scan.variantsOf interface.name name).mapM
        (fun decl => Variant.ofStruct decl.item decl.module) =
      (other.variantsOf interface.name name).mapM fun decl =>
        Variant.ofStruct decl.item decl.module)
    (lines : neededLines scan = neededLines other) :
    contribution config scan interface = contribution config other interface := by
  -- Once the merged type is made, the scan is asked for imports only.
  have context (merged : MergedType) (host : ModulePath) :
      contextFor config scan merged host = contextFor config other merged host := by
    rw [contextFor, contextFor, useContext, useContext, lines]
  have sources (merged : MergedType) :
      sourcesOf config scan merged = sourcesOf config other merged := by
    have rest : variantSource config scan merged = variantSource config other merged := by
      funext variant
      simp only [variantSource, context]
    simp only [sourcesOf, mergedSource, context, rest]
  have merged (name : String) (variants : List Variant) :
      mergedType config scan interface name variants =
        mergedType config other interface name variants := by
    rw [mergedType, mergedType, members]
  have run : ofInterface config scan interface = ofInterface config other interface := by
    simp only [ofInterface, variants, merged, sources]
  rw [contribution, contribution, run]

/-- **A contribution depends on nothing but the interface, the structs, the modules and the traits
without their attributes.** -/
theorem contribution_agrees (agrees : ScanResult.Agrees scan other) (config : Config)
    (interface : Interface) :
    contribution config scan interface = contribution config other interface := by
  refine contribution_congr (Hierarchy.collect_agrees agrees interface) (fun name => ?_) ?_
  · rw [ScanResult.variantsOf, ScanResult.variantsOf, agrees.structs]
  · funext involved host module
    rw [neededLines, neededLines, agrees.module?_eq]

/-! ## What an interface contributes -/

/-- The sources and diagnostics that an interface can add to a pass. -/
inductive Contributes (config : Config) (scan : ScanResult) (interface : Interface) :
    List GeneratedSource → List Diagnostic → Prop
  /-- All sources of a merged type: its own, and one for each variant. -/
  | generated {merged : MergedType} {first : GeneratedSource} {rest : List GeneratedSource}
      (generates : Generates config scan interface merged (first :: rest))
      (kind : first.kind = .merged)
      (variants : List.Forall₂ (fun variant source => source.kind = .variant ∧
        variantSource config scan merged variant = .ok source) merged.variants rest) :
      Contributes config scan interface (first :: rest) []
  /-- Nothing, if no struct implements the interface. -/
  | skipped {name : String}
      (named : MergedType.nameFor interface.name config.interfacePrefix = .ok name)
      (absent : scan.variantsOf interface.name name = []) :
      Contributes config scan interface [] []
  /-- One error that names the interface. -/
  | failed {diagnostic : Diagnostic} (severity : diagnostic.severity = .error)
      (attributed : diagnostic.interface = some interface.name) :
      Contributes config scan interface [] [diagnostic]

/-- The sources of a merged type are of one kind each. -/
theorem sourcesOf_kinds {merged : MergedType} {sources : List GeneratedSource}
    (written : sourcesOf config scan merged = .ok sources) :
    ∃ first rest, sources = first :: rest ∧ first.kind = .merged ∧
      List.Forall₂ (fun variant source => source.kind = .variant ∧
        variantSource config scan merged variant = .ok source) merged.variants rest := by
  obtain ⟨first, rest, made, others, same⟩ := sourcesOf_eq_ok_iff.mp written
  refine ⟨first, rest, same, ?_, others.imp fun variant source made => ⟨?_, made⟩⟩
  · obtain ⟨_, -, here⟩ := mergedSource_eq_ok_iff.mp made
    cases here
    rfl
  · obtain ⟨_, -, here⟩ := variantSource_eq_ok_iff.mp made
    cases here
    rfl

theorem contribution_value (config : Config) (scan : ScanResult) (interface : Interface) :
    (contribution config scan interface).value =
      (ofInterface config scan interface).outcome.mapError (diagnosticFor interface.name) := by
  unfold contribution Pass.outcome
  dsimp only
  cases (ofInterface config scan interface).run.value <;> rfl

/-- **What an interface contributes.** -/
theorem contribution_contributes (config : Config) (scan : ScanResult) (interface : Interface) :
    Contributes config scan interface (sourcesFrom (contribution config scan interface).value)
      (diagnosticFrom? (contribution config scan interface).value).toList := by
  rw [contribution_value]
  cases ran : (ofInterface config scan interface).outcome with
  | ok sources =>
      obtain ⟨name, named, absent, rfl⟩ | ⟨merged, generated⟩ := ofInterface_eq_ok_iff.mp ran
      · exact .skipped named absent
      · obtain ⟨first, rest, rfl, kind, variants⟩ := sourcesOf_kinds generated.sources
        exact .generated generated kind variants
  | error failure =>
      obtain ⟨attributed, severity⟩ := diagnosticFor_interface (ofInterface_failsAbout failure ran)
      exact .failed severity attributed

/-! ## A pass -/

/-- The sources and diagnostics that an interface adds to a pass. -/
def added (config : Config) (scan : ScanResult) (interface : Interface) :
    List GeneratedSource × List Diagnostic :=
  (sourcesFrom (contribution config scan interface).value,
    (diagnosticFrom? (contribution config scan interface).value).toList)

/-- The interfaces are the marked traits. -/
theorem mem_interfaces_iff {marker : String} {units : List SourceUnit} {interface : Interface} :
    interface ∈ (ScanResult.ofUnits marker units).interfaces ↔
      interface.toTraitDecl ∈ (ScanResult.ofUnits marker units).traits ∧
        (interface.mark? marker).map Payload.ofAttribute = some interface.payload := by
  change interface ∈ List.filterMap _ (ScanResult.traitsOf _) ↔
    interface.toTraitDecl ∈ ScanResult.traitsOf _ ∧ _
  rw [List.mem_filterMap]
  constructor
  · rintro ⟨decl, listed, made⟩
    obtain ⟨attr, marked, rfl⟩ := Option.map_eq_some_iff.mp made
    exact ⟨listed, congrArg (Option.map Payload.ofAttribute) marked⟩
  · rintro ⟨listed, payload⟩
    obtain ⟨attr, marked, same⟩ := Option.map_eq_some_iff.mp payload
    exact ⟨interface.toTraitDecl, listed, by rw [marked, Option.map_some, same]⟩

/-- **Interfaces are isolated.** What a pass yields is what its interfaces add, one after the other
in the order of the scan. Each of them adds all sources of a merged type, or nothing, or one error
that names it. What it adds is the same for other units that differ only in attributes of traits, as
long as the interface's own trait is declared there with the same attributes. -/
theorem run_isolated (config : Config) (units : List SourceUnit) :
    let scan := ScanResult.ofUnits config.marker units
    let output := (run config units).value
    output.sources = scan.interfaces.flatMap (fun interface => (added config scan interface).1) ∧
    output.diagnostics =
      scan.interfaces.flatMap (fun interface => (added config scan interface).2) ∧
    (∀ interface ∈ scan.interfaces, Contributes config scan interface
      (added config scan interface).1 (added config scan interface).2) ∧
    ∀ others : List SourceUnit, others.map SourceUnit.bare = units.map SourceUnit.bare →
      let other := ScanResult.ofUnits config.marker others
      ∀ interface ∈ scan.interfaces, interface.toTraitDecl ∈ other.traits →
        interface ∈ other.interfaces ∧
          added config other interface = added config scan interface := by
  intro scan output
  refine ⟨?_, ?_, fun interface _ => contribution_contributes config scan interface, ?_⟩
  · exact List.flatMap_map ..
  · change (scan.interfaces.map _).filterMap _ = _
    rw [List.filterMap_map, List.filterMap_eq_flatMap_toList]
    rfl
  · intro others same other interface listed declared
    obtain ⟨-, payload⟩ := mem_interfaces_iff.mp listed
    refine ⟨mem_interfaces_iff.mpr ⟨declared, payload⟩, ?_⟩
    rw [added, added, contribution_agrees (ScanResult.ofUnits_agrees config.marker same)]

/-- A trait with the mark of an interface. -/
def markedTrait (item : TraitItem) : TraitItem :=
  { item with attributes := [⟨false, false, ["polymorphic_struct"], .none⟩] }

/-- A trait that cannot become an interface, since its name has not the prefix of one. -/
def spareTrait : TraitItem :=
  { shapeTrait with name := "Spare" }

/-- A unit with the interface of shapes, one shape, and another trait. -/
def shapeUnit (spare : TraitItem) : SourceUnit where
  name := "shapes"
  module := .root
  items :=
    [.trait spare, .trait (markedTrait shapeTrait),
      .struct ⟨[], .everywhere, "Origin", .none, .unit⟩,
      .impl ⟨[], [], .none, some ⟨false, .mk false [.mk "IShape" .none]⟩, .named "Origin", []⟩]

/-- The spare trait is an interface when it is marked, and the shapes stay as they are. -/
theorem run_isolated_spare :
    let units := [shapeUnit (markedTrait spareTrait)]
    let others := [shapeUnit spareTrait]
    let scan := ScanResult.ofUnits Config.default.marker units
    let other := ScanResult.ofUnits Config.default.marker others
    let spare : Interface := ⟨⟨.root, markedTrait spareTrait⟩, .absent⟩
    let shape : Interface := ⟨⟨.root, markedTrait shapeTrait⟩, .absent⟩
    others.map SourceUnit.bare = units.map SourceUnit.bare ∧
    spare ∈ scan.interfaces ∧ spare.toTraitDecl ∉ other.traits ∧
    shape ∈ scan.interfaces ∧ shape.toTraitDecl ∈ other.traits ∧
    shape ∈ other.interfaces ∧ added .default other shape = added .default scan shape := by
  intro units others scan other spare shape
  have traits : scan.traits = [⟨.root, markedTrait spareTrait⟩, ⟨.root, markedTrait shapeTrait⟩] :=
    rfl
  have otherTraits : other.traits = [⟨.root, spareTrait⟩, ⟨.root, markedTrait shapeTrait⟩] := rfl
  have listed : shape ∈ scan.interfaces :=
    mem_interfaces_iff.mpr ⟨traits ▸ List.mem_cons_of_mem _ List.mem_cons_self, rfl⟩
  have declared : shape.toTraitDecl ∈ other.traits :=
    otherTraits ▸ List.mem_cons_of_mem _ List.mem_cons_self
  refine ⟨rfl, mem_interfaces_iff.mpr ⟨traits ▸ List.mem_cons_self, rfl⟩, ?_, listed, declared,
    (run_isolated .default units).2.2.2 others rfl shape listed declared⟩
  simp [otherTraits, spare, spareTrait, shapeTrait, markedTrait]

end Generation

end VariantMerge
