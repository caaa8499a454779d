import VariantMerge.Proofs.Generation.Rearrangement
import VariantMerge.Proofs.Hierarchy.Reachable

/-!
# The two output modes

Code in place and module units are made from the same scan, members and layout. The mode decides
three things only: whether all declarations have to stand in one module, what is visible, and what is
imported. So an interface fails in both modes for the same reason, or is skipped in both, or
generates module units; then it generates code in place too, unless its hierarchy is scattered over
several modules (`Generation.Compares`). `Generation.modes_agree` says what follows for a pass.
-/

namespace VariantMerge

def Config.withMode (config : Config) (mode : OutputMode) : Config :=
  { config with mode }

/-- What a source is, apart from its text and what it imports. -/
def GeneratedSource.heading (source : GeneratedSource) :
    String × SourceKind × String × ModulePath :=
  (source.name, source.kind, source.interface, source.module)

namespace Generation

variable {config : Config} {scan : ScanResult} {interface : Interface}

/-- What belongs to an interface, by name and module: the traits of its hierarchy, and the structs
that implement it. -/
inductive Declares (config : Config) (scan : ScanResult) (interface : Interface) :
    String → ModulePath → Prop
  | trait {decl : TraitDecl} (included : Hierarchy.Includes scan interface decl) :
      Declares config scan interface decl.name decl.module
  | variant {mergedName : String} {decl : StructDecl}
      (named : MergedType.nameFor interface.name config.interfacePrefix = .ok mergedName)
      (implements : decl ∈ scan.variantsOf interface.name mergedName) :
      Declares config scan interface decl.name decl.module

def InOneModule (config : Config) (scan : ScanResult) (interface : Interface) : Prop :=
  ∀ name module, Declares config scan interface name module → module = interface.module

def strayDiagnostic (interface : Interface) (name : String) (module : ModulePath) : Diagnostic where
  severity := .error
  interface := some interface.name
  message := (Failure.unsupportedInterface interface.name (.strayDeclaration name module)).message

/-! ## What comes before the mode matters -/

/-- What an interface is generated from. -/
structure Prepared (config : Config) (scan : ScanResult) (interface : Interface) (name : String)
    (variants : List Variant) (members : MemberSet) (layout : SlotLayout) : Prop where
  named : MergedType.nameFor interface.name config.interfacePrefix = .ok name
  made : (scan.variantsOf interface.name name).mapM
    (fun decl => Variant.ofStruct decl.item decl.module) = .ok variants
  collected : (Hierarchy.collect scan interface).outcome = .ok members
  layout : SlotLayout.ofVariants variants = .ok layout

/-- The merged type that is made of this. -/
def assemble (config : Config) (interface : Interface) (name : String) (variants : List Variant)
    (members : MemberSet) (layout : SlotLayout) : MergedType where
  name
  typeIdName := name ++ config.typeIdSuffix
  interface := interface.name
  module := interface.module
  visibility := visibilityFor config interface
  variants
  layout
  members

/-- What comes of an interface is decided step by step, without its events. -/
theorem ofInterface_outcome (config : Config) (scan : ScanResult) (interface : Interface) :
    (ofInterface config scan interface).outcome =
      (MergedType.nameFor interface.name config.interfacePrefix).bind fun name =>
        ((scan.variantsOf interface.name name).mapM fun decl =>
          Variant.ofStruct decl.item decl.module).bind fun variants =>
            if variants.isEmpty then .ok []
            else (Hierarchy.collect scan interface).outcome.bind fun members =>
              (SlotLayout.ofVariants variants).bind fun layout =>
                (checkPlaces config interface variants members).bind fun _ =>
                  sourcesOf config scan
                    (assemble config interface name variants members layout) := by
  simp only [ofInterface, Pass.outcome_bind, Pass.outcome_ofExcept]
  congr 1
  funext name
  congr 1
  funext variants
  split
  · rfl
  · simp only [mergedType, Pass.outcome_bind, Pass.outcome_mk, Pass.outcome_ofExcept,
      Pass.outcome_tell, Pass.outcome_pure]
    cases (Hierarchy.collect scan interface).outcome with
    | error failure => rfl
    | ok members =>
        cases SlotLayout.ofVariants variants with
        | error failure => rfl
        | ok layout =>
            simp only [Except.bind]
            cases checkPlaces config interface variants members with
            | error failure => rfl
            | ok placed =>
                change (sourcesOf config scan
                  (assemble config interface name variants members layout)).bind .ok = _
                cases sourcesOf config scan _ <;> rfl

/-- **Up to the mode.** Before its mode matters, an interface fails, is skipped for want of variants,
or is prepared. -/
theorem outcome_cases (config : Config) (scan : ScanResult) (interface : Interface) :
    (∃ failure, ∀ mode,
      (ofInterface (config.withMode mode) scan interface).outcome = .error failure) ∨
    (∀ mode, (ofInterface (config.withMode mode) scan interface).outcome = .ok []) ∨
    ∃ name variants members layout, Prepared config scan interface name variants members layout ∧
      ∀ mode, (ofInterface (config.withMode mode) scan interface).outcome =
        (checkPlaces (config.withMode mode) interface variants members).bind fun _ =>
          sourcesOf (config.withMode mode) scan
            (assemble (config.withMode mode) interface name variants members layout) := by
  have shared (mode : OutputMode) :
      (config.withMode mode).interfacePrefix = config.interfacePrefix := rfl
  simp only [ofInterface_outcome, shared]
  cases named : MergedType.nameFor interface.name config.interfacePrefix with
  | error failure => exact .inl ⟨failure, fun _ => rfl⟩
  | ok name =>
      simp only [Except.bind]
      cases made : (scan.variantsOf interface.name name).mapM
          (fun decl => Variant.ofStruct decl.item decl.module) with
      | error failure => exact .inl ⟨failure, fun _ => rfl⟩
      | ok variants =>
          by_cases empty : variants.isEmpty
          · simp only [empty, ↓reduceIte]
            exact .inr (.inl fun _ => trivial)
          · simp only [empty, Bool.false_eq_true, ↓reduceIte]
            cases collected : (Hierarchy.collect scan interface).outcome with
            | error failure => exact .inl ⟨failure, fun _ => rfl⟩
            | ok members =>
                cases laid : SlotLayout.ofVariants variants with
                | error failure => exact .inl ⟨failure, fun _ => rfl⟩
                | ok layout =>
                    exact .inr (.inr ⟨name, variants, members, layout,
                      ⟨named, made, collected, laid⟩, fun _ => rfl⟩)

/-! ## Where declarations are -/

/-- What is looked at for strays is what belongs to the interface. -/
theorem Prepared.mem_declared_iff {name : String} {variants : List Variant} {members : MemberSet}
    {layout : SlotLayout} (prepared : Prepared config scan interface name variants members layout)
    {declared : String × ModulePath} :
    declared ∈ (variants.map fun variant => (variant.name, variant.module)) ++
        (members.traits.map fun own => (own.name, own.module)) ↔
      Declares config scan interface declared.1 declared.2 := by
  obtain ⟨sound, complete, -⟩ := Hierarchy.collect_includes prepared.collected
  have made := Except.mapM_eq_ok_iff.mp prepared.made
  have same {decl : StructDecl} {variant : Variant}
      (read : Variant.ofStruct decl.item decl.module = .ok variant) :
      (variant.name, variant.module) = (decl.name, decl.module) :=
    Prod.ext (Variant.ofStruct_declared read).1 (Variant.ofStruct_declared read).2
  rw [List.mem_append, List.mem_map, List.mem_map]
  constructor
  · rintro (⟨variant, listed, rfl⟩ | ⟨own, listed, rfl⟩)
    · obtain ⟨decl, implements, read⟩ := exists_of_forall₂ made.flip listed
      rw [same read]
      exact .variant prepared.named implements
    · obtain ⟨decl, included, read⟩ := sound own listed
      obtain ⟨name, module⟩ := TraitMembers.ofTrait_declared read
      rw [name, module]
      exact .trait included
  · obtain ⟨declaredName, declaredModule⟩ := declared
    intro declares
    cases declares with
    | trait included =>
        obtain ⟨own, listed, read⟩ := complete _ included
        obtain ⟨name, module⟩ := TraitMembers.ofTrait_declared read
        exact .inr ⟨own, listed, Prod.ext name module⟩
    | variant named implements =>
        rw [prepared.named] at named
        cases named
        obtain ⟨variant, listed, read⟩ := exists_of_forall₂ made implements
        exact .inl ⟨variant, listed, same read⟩

/-- A stray declaration is one that is declared in another module. -/
theorem Prepared.mem_strays_iff {name : String} {variants : List Variant} {members : MemberSet}
    {layout : SlotLayout} (prepared : Prepared config scan interface name variants members layout)
    {declared : String × ModulePath} :
    declared ∈ strays interface.module variants members ↔
      Declares config scan interface declared.1 declared.2 ∧ declared.2 ≠ interface.module := by
  unfold strays
  rw [List.mem_filter, prepared.mem_declared_iff, bne_iff_ne]

/-- There are no strays exactly if everything is in one module. -/
theorem Prepared.strays_eq_nil_iff {name : String} {variants : List Variant} {members : MemberSet}
    {layout : SlotLayout} (prepared : Prepared config scan interface name variants members layout) :
    strays interface.module variants members = [] ↔ InOneModule config scan interface := by
  rw [List.eq_nil_iff_forall_not_mem]
  constructor
  · intro none_ declaredName declaredModule declares
    by_contra elsewhere
    exact none_ (declaredName, declaredModule) (prepared.mem_strays_iff.mpr ⟨declares, elsewhere⟩)
  · intro together declared stray
    obtain ⟨declares, elsewhere⟩ := prepared.mem_strays_iff.mp stray
    exact elsewhere (together _ _ declares)

/-! ## Sources in both modes -/

def variantHeading (merged : MergedType) (variant : Variant) :
    String × SourceKind × String × ModulePath :=
  (Text.snakeCase variant.name ++ "_" ++ Text.snakeCase merged.name, .variant,
    merged.interface, variant.module)

def headings (merged : MergedType) : List (String × SourceKind × String × ModulePath) :=
  (merged.name, .merged, merged.interface, merged.module) ::
    merged.variants.map (variantHeading merged)

def codes (config : Config) (merged : MergedType) : List (List Code) :=
  (merged.declarationCode config ++ merged.dispatchCode config) ::
    merged.variants.map fun variant => (merged.conversion config variant).code

/-- A variant's source has the heading and the text that are its own. -/
theorem variantSource_contents {merged : MergedType} {variant : Variant}
    {source : GeneratedSource} (written : variantSource config scan merged variant = .ok source) :
    variantHeading merged variant = source.heading ∧
      Code.text config.indent (merged.conversion config variant).code = .ok source.text := by
  obtain ⟨text, emitted, same⟩ := variantSource_eq_ok_iff.mp written
  cases same
  exact ⟨rfl, emitted⟩

/-- The sources of a merged type have its headings and the texts of its code. -/
theorem sourcesOf_contents {merged : MergedType} {sources : List GeneratedSource}
    (written : sourcesOf config scan merged = .ok sources) :
    headings merged = sources.map GeneratedSource.heading ∧
      (codes config merged).map (Code.text config.indent) =
        (sources.map GeneratedSource.text).map Except.ok := by
  obtain ⟨first, rest, made, others, rfl⟩ := sourcesOf_eq_ok_iff.mp written
  obtain ⟨text, emitted, same⟩ := mergedSource_eq_ok_iff.mp made
  cases same
  constructor
  · refine congrArg (List.cons _) ?_
    rw [← List.forall₂_eq_eq_eq, List.forall₂_map_left_iff, List.forall₂_map_right_iff]
    exact others.imp fun _ _ made => (variantSource_contents made).1
  · rw [codes, List.map_cons, emitted]
    refine congrArg (List.cons _) ?_
    rw [List.map_map, List.map_map, ← List.forall₂_eq_eq_eq, List.forall₂_map_left_iff,
      List.forall₂_map_right_iff]
    exact others.imp fun _ _ made => (variantSource_contents made).2

/-- Each source is hosted where its struct or its interface is declared. -/
theorem sourcesOf_modules {merged : MergedType} {sources : List GeneratedSource}
    (written : sourcesOf config scan merged = .ok sources) :
    sources.map GeneratedSource.module = merged.module :: merged.variants.map Variant.module := by
  have hosts := congrArg (List.map (·.2.2.2)) (sourcesOf_contents written).1
  rw [headings, List.map_cons, List.map_map, List.map_map] at hosts
  exact hosts.symm

/-- A merged type always has a source. -/
theorem sourcesOf_ne_nil {merged : MergedType} {sources : List GeneratedSource}
    (written : sourcesOf config scan merged = .ok sources) : sources ≠ [] := by
  obtain ⟨first, rest, -, -, rfl⟩ := sourcesOf_eq_ok_iff.mp written
  exact List.cons_ne_nil first rest

/-- How what an interface adds in place compares with what it adds as module units. -/
inductive Compares (config : Config) (scan : ScanResult) (interface : Interface) :
    List GeneratedSource × List Diagnostic → List GeneratedSource × List Diagnostic → Prop
  /-- It fails for one reason in both modes. -/
  | failed (diagnostic : Diagnostic) :
      Compares config scan interface ([], [diagnostic]) ([], [diagnostic])
  /-- It has no variants. -/
  | skipped : Compares config scan interface ([], []) ([], [])
  /-- It generates in both modes. -/
  | generated {sources others : List GeneratedSource} (together : InOneModule config scan interface)
      (emitted : sources ≠ [] ∧ others ≠ [])
      (headings : others.map GeneratedSource.heading = sources.map GeneratedSource.heading)
      (texts : interface.item.visibility = .everywhere →
        others.map GeneratedSource.text = sources.map GeneratedSource.text) :
      Compares config scan interface (sources, []) (others, [])
  /-- It generates module units only, since one of its declarations is elsewhere. -/
  | scattered {others : List GeneratedSource} {name : String} {module : ModulePath}
      (emitted : others ≠ []) (declares : Declares config scan interface name module)
      (elsewhere : module ≠ interface.module) :
      Compares config scan interface ([], [strayDiagnostic interface name module]) (others, [])

/-- What an interface adds is its sources, or its diagnostic. -/
theorem added_eq (config : Config) (scan : ScanResult) (interface : Interface) :
    added config scan interface =
      match (ofInterface config scan interface).outcome with
      | .ok sources => (sources, [])
      | .error failure => ([], [diagnosticFor interface.name failure]) := by
  rw [added, contribution_value]
  cases (ofInterface config scan interface).outcome <;> rfl

/-- What is written for a public trait does not depend on the mode. -/
theorem texts_eq {name : String} {variants : List Variant} {members : MemberSet}
    {layout : SlotLayout} {sources others : List GeneratedSource}
    (inPlace : sourcesOf (config.withMode .inPlace) scan
      (assemble (config.withMode .inPlace) interface name variants members layout) = .ok sources)
    (wrapped : sourcesOf (config.withMode .moduleUnits) scan
      (assemble (config.withMode .moduleUnits) interface name variants members layout) = .ok others)
    (public_ : interface.item.visibility = .everywhere) :
    others.map GeneratedSource.text = sources.map GeneratedSource.text := by
  have shown : interface.visibility = "pub" := by
    unfold TraitDecl.visibility
    rw [public_]
    rfl
  have visible : visibilityFor (config.withMode .inPlace) interface =
      visibilityFor (config.withMode .moduleUnits) interface := by
    change interface.visibility = if interface.visibility == "pub" then "pub" else "pub(crate)"
    rw [shown]
    rfl
  have merged : assemble (config.withMode .inPlace) interface name variants members layout =
      assemble (config.withMode .moduleUnits) interface name variants members layout := by
    rw [assemble, assemble, visible]
    rfl
  -- The texts are compared as what the same code is written to.
  have injective : Function.Injective (Except.ok : String → Except Failure String) :=
    fun _ _ same => Except.ok.inj same
  apply injective.list_map
  rw [← (sourcesOf_contents inPlace).2, ← (sourcesOf_contents wrapped).2, merged]
  rfl

/-- Both modes add the same, except for strays. -/
theorem compares {unit : String} (built : config.indent.unit? = some unit) (scan : ScanResult)
    (interface : Interface) :
    Compares config scan interface (added (config.withMode .inPlace) scan interface)
      (added (config.withMode .moduleUnits) scan interface) := by
  rw [added_eq, added_eq]
  obtain ⟨failure, fails⟩ | skips | ⟨name, variants, members, layout, prepared, goesOn⟩ :=
    outcome_cases config scan interface
  · rw [fails, fails]
    exact .failed _
  · rw [skips, skips]
    exact .skipped
  · have builtHere (mode : OutputMode) : (config.withMode mode).indent.unit? = some unit := built
    obtain ⟨others, wrapped⟩ := exists_sourcesOf (builtHere .moduleUnits) scan
      (assemble (config.withMode .moduleUnits) interface name variants members layout)
    have emitted := sourcesOf_ne_nil wrapped
    have units : (ofInterface (config.withMode .moduleUnits) scan interface).outcome =
        .ok others := by
      rw [goesOn]
      exact wrapped
    rw [units, goesOn]
    -- Only the check of places tells the two modes apart from here on.
    cases found : strays interface.module variants members with
    | nil =>
        have allowed : checkPlaces (config.withMode .inPlace) interface variants members =
            .ok () := by
          simp only [checkPlaces, found]
          rfl
        obtain ⟨sources, inPlace⟩ := exists_sourcesOf (builtHere .inPlace) scan
          (assemble (config.withMode .inPlace) interface name variants members layout)
        rw [allowed, Except.bind, inPlace]
        refine .generated (prepared.strays_eq_nil_iff.mp found) ⟨sourcesOf_ne_nil inPlace, emitted⟩
          ?_ (texts_eq inPlace wrapped)
        rw [← (sourcesOf_contents inPlace).1, ← (sourcesOf_contents wrapped).1]
        rfl
    | cons stray rest =>
        obtain ⟨declares, elsewhere⟩ :=
          prepared.mem_strays_iff.mp (found ▸ List.mem_cons_self : stray ∈ _)
        have refused : checkPlaces (config.withMode .inPlace) interface variants members =
            .error (.unsupportedInterface interface.name
              (.strayDeclaration stray.1 stray.2)) := by
          simp only [checkPlaces, found]
          rfl
        rw [refused, Except.bind]
        exact .scattered emitted declares elsewhere

/-! ## A pass in both modes -/

/-- A pass yields what its interfaces add, in the order of the scan. -/
theorem run_eq_added (config : Config) (units : List SourceUnit) :
    let scan := ScanResult.ofUnits config.marker units
    (run config units).value.sources =
        scan.interfaces.flatMap (fun interface => (added config scan interface).1) ∧
      (run config units).value.diagnostics =
        scan.interfaces.flatMap fun interface => (added config scan interface).2 := by
  intro scan
  constructor
  · exact List.flatMap_map ..
  · change (List.map _ _).filterMap _ = _
    rw [List.filterMap_map, List.filterMap_eq_flatMap_toList]
    rfl

/-- The modules of a pass are those of its scan. -/
theorem run_modules (config : Config) (units : List SourceUnit) :
    (run config units).value.modules =
      (ScanResult.ofUnits config.marker units).modules.map Prod.fst := rfl

/-- Every source belongs to an interface that is generated. -/
theorem exists_generates_of_mem_sources {units : List SourceUnit} {source : GeneratedSource}
    (listed : source ∈ (run config units).value.sources) :
    ∃ interface ∈ (ScanResult.ofUnits config.marker units).interfaces, ∃ merged sources,
      Generates config (ScanResult.ofUnits config.marker units) interface merged sources ∧
        source ∈ sources := by
  rw [(run_eq_added config units).1] at listed
  obtain ⟨interface, declared, added⟩ := List.mem_flatMap.mp listed
  refine ⟨interface, declared, ?_⟩
  rw [added_eq] at added
  cases ran : (ofInterface config (ScanResult.ofUnits config.marker units) interface).outcome with
  | error failure => simp [ran] at added
  | ok sources =>
      rw [ran] at added
      obtain ⟨_, -, -, rfl⟩ | ⟨merged, generated⟩ := ofInterface_eq_ok_iff.mp ran
      · exact absurd added List.not_mem_nil
      · exact ⟨merged, sources, generated, added⟩

/-- **The two output modes agree.** In either mode, a pass yields what the interfaces of one scan
add. Where an interface has sources in place, it has module units of the same names, kinds,
interfaces and modules, and with the same texts if its trait is public. Where it has module units, it
has sources in place exactly if its variants and the traits of its hierarchy are all in its own
module, and one error about a declaration elsewhere if not. Where it fails with module units, it
fails in place with the same diagnostic. -/
theorem modes_agree (config : Config) {unit : String} (built : config.indent.unit? = some unit)
    (units : List SourceUnit) :
    let scan := ScanResult.ofUnits config.marker units
    let inPlace := added (config.withMode .inPlace) scan
    let wrapped := added (config.withMode .moduleUnits) scan
    (∀ mode, let output := (run (config.withMode mode) units).value
      output.sources = scan.interfaces.flatMap
          (fun interface => (added (config.withMode mode) scan interface).1) ∧
        output.diagnostics = scan.interfaces.flatMap
          fun interface => (added (config.withMode mode) scan interface).2) ∧
    ∀ interface ∈ scan.interfaces,
      ((inPlace interface).1 ≠ [] →
        (wrapped interface).1.map GeneratedSource.heading =
            (inPlace interface).1.map GeneratedSource.heading ∧
          (interface.item.visibility = .everywhere →
            (wrapped interface).1.map GeneratedSource.text =
              (inPlace interface).1.map GeneratedSource.text)) ∧
      ((wrapped interface).1 ≠ [] →
        ((inPlace interface).1 ≠ [] ↔ InOneModule config scan interface) ∧
          (¬ InOneModule config scan interface → ∃ name module,
            Declares config scan interface name module ∧ module ≠ interface.module ∧
              inPlace interface = ([], [strayDiagnostic interface name module]))) ∧
      ((wrapped interface).2 ≠ [] → inPlace interface = ([], (wrapped interface).2)) := by
  intro scan inPlace wrapped
  refine ⟨fun mode => run_eq_added (config.withMode mode) units, fun interface _ => ?_⟩
  have compared := compares built scan interface
  change Compares config scan interface (inPlace interface) (wrapped interface) at compared
  generalize inPlace interface = here at compared
  generalize wrapped interface = there at compared
  cases compared with
  | failed diagnostic => simp
  | skipped => simp
  | generated together emitted headings texts =>
      exact ⟨fun _ => ⟨headings, texts⟩,
        fun _ => ⟨⟨fun _ => together, fun _ => emitted.1⟩, fun apart => absurd together apart⟩,
        fun fails => absurd rfl fails⟩
  | @scattered _ name module emitted declares elsewhere =>
      have apart : ¬ InOneModule config scan interface :=
        fun together => elsewhere (together _ _ declares)
      exact ⟨fun none_ => absurd rfl none_,
        fun _ => ⟨⟨fun none_ => absurd rfl none_, fun together => absurd together apart⟩,
          fun _ => ⟨name, module, declares, elsewhere, rfl⟩⟩,
        fun fails => absurd rfl fails⟩

/-! ## Shapes in two modules -/

def useOf (tree : UseTree) : Item :=
  .use ⟨[], .inherited, false, tree⟩

/-- The interface of shapes with one shape at the root, and another shape in a module of its own.
Each module has imports, some of them from the other one. -/
def farShapes : ScanResult :=
  ScanResult.ofUnits Config.default.marker
    [⟨"shapes", .root,
        [useOf (.path "std" (.path "fmt" (.group [.name "self", .name "Debug"] false))),
          useOf (.path "far" (.name "Square")),
          .module ⟨[], .inherited, false, "far"⟩ none, .trait (markedTrait shapeTrait),
          unitStruct "Origin", blockFor isShape "Origin"]⟩,
      ⟨"far", ⟨["far"]⟩,
        [useOf (.path "super" (.group [.name "IShape", .rename "Origin" "Zero"] false)),
          useOf (.path "std" (.path "fmt" (.name "Debug"))), useOf (.path "glam" .glob),
          unitStruct "Square", blockFor isShape "Square"]⟩]

def markedShape : Interface := ⟨⟨.root, markedTrait shapeTrait⟩, .absent⟩

def farMerged : MergedType :=
  { shapeMerged with
    variants := [⟨"Origin", .root, .unit, []⟩, ⟨"Square", ⟨["far"]⟩, .unit, []⟩]
    layout := ⟨[], [("Origin", []), ("Square", [])]⟩ }

/-- Shapes in two modules are generated as units. -/
theorem generates_farShapes :
    ∃ sources, Generates (Config.default.withMode .moduleUnits) farShapes markedShape farMerged
      sources := by
  have built : (Config.default.withMode .moduleUnits).indent.unit? = some "    " := rfl
  obtain ⟨sources, written⟩ := exists_sourcesOf built farShapes farMerged
  exact ⟨sources, rfl, rfl, List.cons_ne_nil _ _, rfl, rfl, rfl, rfl, rfl, rfl, rfl, written⟩

/-- One of them is declared in the other module. -/
theorem farShapes_declares : Declares .default farShapes markedShape "Square" ⟨["far"]⟩ := by
  have named : MergedType.nameFor markedShape.name Config.default.interfacePrefix =
      .ok "Shape" := rfl
  have square : StructDecl.mk ⟨["far"]⟩ ⟨[], .everywhere, "Square", .none, .unit⟩ ["IShape"] ∈
      farShapes.variantsOf markedShape.name "Shape" := List.mem_cons_of_mem _ List.mem_cons_self
  exact Declares.variant named square

/-- Shapes in two modules are generated as module units only. -/
theorem modes_agree_farShapes :
    Config.default.indent.unit? = some "    " ∧ markedShape ∈ farShapes.interfaces ∧
      (added (Config.default.withMode .moduleUnits) farShapes markedShape).1 ≠ [] ∧
      ¬ InOneModule .default farShapes markedShape ∧
      ∃ name module, module ≠ .root ∧
        added (Config.default.withMode .inPlace) farShapes markedShape =
          ([], [strayDiagnostic markedShape name module]) := by
  have built : Config.default.indent.unit? = some "    " := rfl
  have listed : markedShape ∈ farShapes.interfaces := List.mem_singleton_self _
  have emitted : (added (Config.default.withMode .moduleUnits) farShapes markedShape).1 ≠ [] := by
    obtain ⟨sources, generated⟩ := generates_farShapes
    rw [added_eq, ofInterface_eq_ok_iff.mpr (.inr ⟨_, generated⟩)]
    exact sourcesOf_ne_nil generated.sources
  have apart : ¬ InOneModule .default farShapes markedShape := by
    intro together
    have here := together _ _ farShapes_declares
    cases here
  obtain ⟨-, agree⟩ := modes_agree .default built _
  obtain ⟨-, refused⟩ := (agree markedShape listed).2.1 emitted
  obtain ⟨name, module, -, elsewhere, failed⟩ := refused apart
  exact ⟨built, listed, emitted, apart, name, module, elsewhere, failed⟩

end Generation

end VariantMerge
