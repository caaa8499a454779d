import VariantMerge.Emit.Conversion
import VariantMerge.Emit.Declaration
import VariantMerge.Emit.Dispatch

/-!
# The generation pass

A pass scans its units and then generates for each marked interface on its own: a source with the
merged type and its dispatch, and one with the conversions of each variant. What goes wrong with
one interface becomes one diagnostic, and the pass goes on with the next. An interface without
variants is passed by.
-/

namespace VariantMerge

/-- What a generated source holds. -/
inductive SourceKind where
  | merged
  | variant
  deriving DecidableEq, Repr, Inhabited

/-- What a source needs to import where it does not stand next to the declarations that it is
about: everything of some modules, and single names. -/
structure UseContext where
  globs : List ModulePath
  uses : List String
  deriving DecidableEq, Repr, Inhabited

/-- A piece of generated source text, hosted by a module. -/
structure GeneratedSource where
  name : String
  kind : SourceKind
  interface : String
  module : ModulePath
  text : String
  context : UseContext
  deriving DecidableEq, Repr, Inhabited

/-- What a pass yields. -/
structure Generation where
  sources : List GeneratedSource
  diagnostics : List Diagnostic
  modules : List ModulePath
  deriving DecidableEq, Repr, Inhabited

namespace Generation

/-- The sources that a module hosts, in order. -/
def sourcesIn (generation : Generation) (module : ModulePath) : List GeneratedSource :=
  generation.sources.filter (·.module == module)

/-! ## Imports -/

/-- Whether an import is reached without being named: its name is not changed, and it comes from a
module that is involved or hosts the source. -/
def isCovered (involved : List ModulePath) (host : ModulePath) (anchored : Import) : Bool :=
  !anchored.imported.isRenamed &&
    anchored.sourceModule?.any fun module => module == host || involved.contains module

/-- The lines of a module's imports that have to be named. -/
def neededLines (scan : ScanResult) (involved : List ModulePath) (host module : ModulePath) :
    List String :=
  match scan.module? module with
  | none => []
  | some info =>
    ((info.imports module).filter (!isCovered involved host ·)).map Import.line

/-- What a source hosted by `host` brings into scope: the other modules that are involved, and
what these bring into theirs. -/
def useContext (scan : ScanResult) (merged : MergedType) (host : ModulePath) : UseContext :=
  let globs := (merged.involved.filter (· != host)).eraseDups
  ⟨globs, (globs.flatMap (neededLines scan merged.involved host)).eraseDups⟩

/-- The context of a source. Next to the declarations, nothing has to be imported. -/
def contextFor (config : Config) (scan : ScanResult) (merged : MergedType)
    (host : ModulePath) : UseContext :=
  match config.mode with
  | .inPlace => ⟨[], []⟩
  | .moduleUnits => useContext scan merged host

/-! ## One interface -/

/-- The declarations that are not in the interface's own module, variants first. -/
def strays (module : ModulePath) (variants : List Variant) (members : MemberSet) :
    List (String × ModulePath) :=
  ((variants.map fun variant => (variant.name, variant.module)) ++
    members.traits.map fun declared => (declared.name, declared.module)).filter (·.2 != module)

/-- Code in place needs all declarations in one module. -/
def checkPlaces (config : Config) (interface : Interface) (variants : List Variant)
    (members : MemberSet) : Except Failure Unit :=
  match config.mode, strays interface.module variants members with
  | .inPlace, (name, module) :: _ =>
    .error (.unsupportedInterface interface.name (.strayDeclaration name module))
  | _, _ => .ok ()

/-- The visibility of what is generated. In a wrapper module, everything is visible in the crate
at least. -/
def visibilityFor (config : Config) (interface : Interface) : String :=
  match config.mode with
  | .inPlace => interface.visibility
  | .moduleUnits => if interface.visibility == "pub" then "pub" else "pub(crate)"

/-- The source with the merged type and its dispatch. -/
def mergedSource (config : Config) (scan : ScanResult) (merged : MergedType) :
    Except Failure GeneratedSource := do
  let declared ← merged.emitDeclaration config (← SourceWriter.new config.indent)
  let text ← (← merged.emitDispatch config declared).finish
  return ⟨merged.name, .merged, merged.interface, merged.module, text,
    contextFor config scan merged merged.module⟩

/-- The source with the conversions of a variant. -/
def variantSource (config : Config) (scan : ScanResult) (merged : MergedType)
    (variant : Variant) : Except Failure GeneratedSource := do
  let written ← (merged.conversion config variant).emit (← SourceWriter.new config.indent)
  let text ← written.finish
  return ⟨Text.snakeCase variant.name ++ "_" ++ Text.snakeCase merged.name, .variant,
    merged.interface, variant.module, text, contextFor config scan merged variant.module⟩

/-- All sources of a merged type. -/
def sourcesOf (config : Config) (scan : ScanResult) (merged : MergedType) :
    Except Failure (List GeneratedSource) := do
  let first ← mergedSource config scan merged
  return first :: (← merged.variants.mapM (variantSource config scan merged))

/-- The merged type of an interface from its variants. -/
def mergedType (config : Config) (scan : ScanResult) (interface : Interface) (name : String)
    (variants : List Variant) : Pass MergedType := do
  let members ← Hierarchy.collect scan interface
  ExceptT.mk ⟨.ok (), SlotLayout.events variants⟩
  let layout ← Pass.ofExcept (SlotLayout.ofVariants variants)
  Pass.tell ⟨.debug, "Merged layout computed",
    [("interface", .text interface.name), ("variants", .count variants.length),
      ("members", .count members.members.length), ("slots", .count layout.slots.length)]⟩
  Pass.ofExcept (checkPlaces config interface variants members)
  return {
    name
    typeIdName := name ++ config.typeIdSuffix
    interface := interface.name
    module := interface.module
    visibility := visibilityFor config interface
    variants
    layout
    members }

/-- The sources of an interface, none if it has no variants. -/
def ofInterface (config : Config) (scan : ScanResult) (interface : Interface) :
    Pass (List GeneratedSource) := do
  let name ← Pass.ofExcept (MergedType.nameFor interface.name config.interfacePrefix)
  let variants ← Pass.ofExcept ((scan.variantsOf interface.name name).mapM fun decl =>
    Variant.ofStruct decl.item decl.module)
  if variants.isEmpty then
    Pass.tell ⟨.warn, "No implementing structs found; skipping",
      [("interface", .text interface.name)]⟩
    return []
  else
    let merged ← mergedType config scan interface name variants
    let sources ← Pass.ofExcept (sourcesOf config scan merged)
    Pass.tell ⟨.info, "Generated merged type",
      [("interface", .text interface.name), ("merged", .text merged.name),
        ("variants", .count variants.length), ("slots", .count merged.layout.slots.length)]⟩
    return sources

/-! ## All interfaces -/

/-- The diagnostic for an interface that failed. It always names the interface. -/
def diagnosticFor (interface : String) (failure : Failure) : Diagnostic :=
  match failure with
  | .oversizedIndent | .cutCharacter =>
    ⟨.error, some interface, "generator panicked: " ++ failure.message⟩
  | _ => ⟨.error, some (failure.interface?.getD interface), failure.message⟩

/-- The event for an interface that failed. -/
def failureEvent (interface : String) (failure : Failure) : Event :=
  match failure with
  | .oversizedIndent | .cutCharacter =>
    ⟨.error, "Generation panicked",
      [("interface", .text interface), ("message", .text failure.message)]⟩
  | _ => ⟨.error, "Generation failed",
      [("interface", .text interface), ("error", .text failure.message)]⟩

/-- What one interface adds to a pass: its sources, or one diagnostic. -/
def contribution (config : Config) (scan : ScanResult) (interface : Interface) :
    Logged (Except Diagnostic (List GeneratedSource)) :=
  let ran := (ofInterface config scan interface).run
  match ran.value with
  | .ok sources => ⟨.ok sources, ran.events⟩
  | .error failure =>
    ⟨.error (diagnosticFor interface.name failure),
      ran.events ++ [failureEvent interface.name failure]⟩

/-- The sources that a contribution brings. -/
def sourcesFrom : Except Diagnostic (List GeneratedSource) → List GeneratedSource
  | .ok sources => sources
  | .error _ => []

/-- The diagnostic that a contribution brings, if it failed. -/
def diagnosticFrom? : Except Diagnostic α → Option Diagnostic
  | .ok _ => none
  | .error diagnostic => some diagnostic

/-- A pass over what was scanned. -/
def ofScan (config : Config) (scan : ScanResult) : Logged Generation :=
  let parts := scan.interfaces.map (contribution config scan)
  ⟨⟨parts.flatMap fun part => sourcesFrom part.value,
      parts.filterMap fun part => diagnosticFrom? part.value,
      scan.modules.map (·.1)⟩,
    parts.flatMap Logged.events⟩

/-- A pass over a list of units. It never fails; what went wrong is in the diagnostics. -/
def run (config : Config) (units : List SourceUnit) : Logged Generation := do
  let scan ← ScanResult.run config.marker units
  ofScan config scan

end Generation

end VariantMerge
