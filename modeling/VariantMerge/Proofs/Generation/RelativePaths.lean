import VariantMerge.ModuleUnit
import VariantMerge.Proofs.Generation.UseContext
import VariantMerge.Proofs.Hierarchy.Methods
import VariantMerge.Proofs.Hierarchy.Reachable
import VariantMerge.Proofs.Import.Climbing
import VariantMerge.Proofs.Layout.FirstUser

/-!
# Relative paths in generated types

The types of slots and the heads of methods are copied as they are declared, and read from the
wrapper module of the interface's own module. A path in them that starts with `self` or `super`
then means what it meant at its declaration exactly if both modules are equally deep and meet where
the path has climbed to (`Generation.Generates.relative_paths`). This is so for the fields of a
variant in a child module of the interface's, and never for what is declared next to the interface
(`Generation.relative_paths_frame`). Imports with such paths are anchored; types are not.
-/

namespace VariantMerge

namespace Generation

open Hierarchy (Includes)
open ModulePath (climbs Meets)

variable {config : Config} {scan : ScanResult} {interface : Interface} {merged : MergedType}
  {sources : List GeneratedSource}

/-- The module from which the merged type's source is read as part of a module unit. -/
def wrapperOf (merged : MergedType) : ModulePath :=
  merged.module.child ModuleUnit.wrapper

/-- Tokens with types in the source of a merged type, and the module of the variant or of the trait
that they belong to. A slot's type belongs to its first user. -/
inductive Emits (merged : MergedType) : ModulePath → List Token → Prop
  | slot {slot : Slot} {variant : Variant} {field : VariantField} :
      slot ∈ merged.layout.slots → variant ∈ merged.variants → field ∈ variant.fields →
      slot.users.head? = some (variant.name, field.name) → slot.ty = field.ty →
      Emits merged variant.module slot.ty.tokens
  | method {declared : TraitMembers} {method : Method} {tokens : List Token} :
      declared ∈ merged.members.traits → method ∈ declared.members.flatMap Member.methods →
      tokens ∈ method.typeTokens → Emits merged declared.module tokens

/-- Tokens of a type of a field, or of a part of a signature with types in it, that are declared in
a module by the structs and traits of an interface. -/
inductive Types (scan : ScanResult) (interface : Interface) (mergedName : String) :
    ModulePath → List Token → Prop
  | field {decl : StructDecl} {field : VariantField} :
      decl ∈ scan.variantsOf interface.name mergedName →
      field ∈ (Variant.fieldsOf decl.item.fields).2 →
      Types scan interface mergedName decl.module field.ty.tokens
  | signature {decl : TraitDecl} {attributes : List Attribute} {signature : Signature}
      {body : Option (List Token)} {tokens : List Token} :
      Includes scan interface decl →
      .method attributes signature body ∈ decl.item.entries → tokens ∈ signature.typeTokens →
      Types scan interface mergedName decl.module tokens

/-- Types are copied from where they are declared. -/
theorem Generates.types_of_emits (generated : Generates config scan interface merged sources)
    {declaring : ModulePath} {tokens : List Token} (emitted : Emits merged declaring tokens) :
    Types scan interface merged.name declaring tokens := by
  cases emitted with
  | slot stored listed declared first same =>
      have made := (Except.mapM_eq_ok_iff.mp generated.variants).flip
      obtain ⟨decl, found, read⟩ := exists_of_forall₂ made listed
      rw [same, (Variant.ofStruct_declared read).2]
      exact .field found (Variant.ofStruct_fields read ▸ declared)
  | method traits dispatched written =>
      obtain ⟨included, -, -⟩ := Hierarchy.collect_includes generated.members
      obtain ⟨decl, inHierarchy, made⟩ := included _ traits
      obtain ⟨attributes, signature, body, entry, read⟩ :=
        TraitMembers.ofTrait_methods made _ dispatched
      rw [(TraitMembers.ofTrait_declared made).2]
      exact .signature inHierarchy entry (Method.ofSignature_typeTokens read written)

/-- **Relative paths are copied with the types.** The type of every slot and the heads of all
methods are taken from declarations as they are. A relative path in them leads from the wrapper
module to where it led at its declaration exactly if the two modules meet where it has climbed to:
never if the declaration stands in the interface's own module, and always if it stands in a child
module of that one and the path climbs. -/
theorem Generates.relative_paths (generated : Generates config scan interface merged sources) :
    (∀ slot ∈ merged.layout.slots, ∃ declaring, Emits merged declaring slot.ty.tokens) ∧
    ∀ declaring tokens, Emits merged declaring tokens →
      Types scan interface merged.name declaring tokens ∧
      ∀ path ∈ Token.relativePaths tokens, ∀ place, declaring.climb? path = some place →
        ((wrapperOf merged).climb? path = some place ↔
          Meets (climbs path) declaring (wrapperOf merged)) ∧
        (declaring = merged.module → (wrapperOf merged).climb? path ≠ some place) ∧
        (declaring.parent? = some merged.module → 0 < climbs path →
          (wrapperOf merged).climb? path = some place) := by
  refine ⟨fun slot stored => ?_, fun declaring tokens emitted => ?_⟩
  · obtain ⟨variant, listed, field, declared, first, same⟩ :=
      SlotLayout.ofVariants_firstUser generated.layout slot stored
    exact ⟨variant.module, .slot stored listed declared first same⟩
  refine ⟨generated.types_of_emits emitted, fun path _ place leads => ?_⟩
  have reads : (wrapperOf merged).climb? path = some place ↔
      Meets (climbs path) declaring (wrapperOf merged) := ModulePath.climb?_eq_iff leads
  -- The wrapper is a child of the interface's module, as deep as the other children are.
  refine ⟨reads, fun own same => ?_, fun child climbed => reads.mpr ?_⟩
  · exact ModulePath.not_meets_child _ _ (own ▸ reads.mp same)
  · obtain ⟨name, rfl⟩ := ModulePath.eq_child_of_parent? child
    exact ModulePath.meets_siblings _ _ _ climbed

def outerType (name : String) : Ty :=
  .path (.mk false [.mk "super" .none, .mk name .none])

/-- A trait with a method that takes a frame from the module above. -/
def fittingTrait : TraitItem :=
  { markedTrait shapeTrait with
    entries :=
      [.method [] ⟨false, false, false, none, "fit", .none,
        [.receiver ⟨[], some none, true, none⟩,
          .typed [] (.binding "frame" [.word "frame"]) (.reference none false (outerType "Frame"))],
        false, none, none⟩ none] }

def fittingShape : Interface := ⟨⟨⟨["shapes"]⟩, fittingTrait⟩, .absent⟩

/-- A module with the trait, and in it a module with a shape whose side has a type from the module
above. -/
def fittingShapes : ScanResult :=
  ScanResult.ofUnits Config.default.marker
    [⟨"shapes", ⟨["shapes"]⟩,
        [.module ⟨[], .everywhere, false, "square"⟩ none, .trait fittingTrait]⟩,
      ⟨"square", ⟨["shapes", "square"]⟩,
        [.struct ⟨[], .everywhere, "Square", .none,
            .named [⟨[], .inherited, some "side", outerType "Length"⟩] false⟩,
          blockFor isShape "Square"]⟩]

def side : VariantField := ⟨"side", outerType "Length"⟩

def squareVariant : Variant := ⟨"Square", ⟨["shapes", "square"]⟩, .named, [side]⟩

def sideSlot : Slot := ⟨0, outerType "Length", [("Square", "side")]⟩

def fitMethod : Method :=
  ⟨"fit", .exclusive, "&mut self", [⟨"frame", .reference none false (outerType "Frame"), .shared⟩],
    none, .none, false⟩

def fittingMembers : TraitMembers := ⟨"IShape", ⟨["shapes"]⟩, [.method fitMethod]⟩

def fittingMerged : MergedType :=
  { shapeMerged with
    module := ⟨["shapes"]⟩
    variants := [squareVariant]
    layout := ⟨[sideSlot], [("Square", [("side", 0)])]⟩
    members := ⟨[fittingMembers]⟩ }

theorem generates_fittingShapes :
    ∃ sources, Generates (Config.default.withMode .moduleUnits) fittingShapes fittingShape
      fittingMerged sources := by
  have built : (Config.default.withMode .moduleUnits).indent.unit? = some "    " := rfl
  obtain ⟨sources, written⟩ := exists_sourcesOf built fittingShapes fittingMerged
  exact ⟨sources, rfl, rfl, List.cons_ne_nil _ _, rfl, rfl, rfl, rfl, rfl, rfl, rfl, written⟩

/-- The side of the square has the type that it is declared with. -/
theorem relative_paths_length :
    ∃ sources, Generates (Config.default.withMode .moduleUnits) fittingShapes fittingShape
        fittingMerged sources ∧
      Emits fittingMerged squareVariant.module sideSlot.ty.tokens ∧
      Token.relativePaths sideSlot.ty.tokens = [["super", "Length"]] ∧
      squareVariant.module.climb? ["super", "Length"] = some ["shapes", "Length"] ∧
      (wrapperOf fittingMerged).climb? ["super", "Length"] = some ["shapes", "Length"] := by
  obtain ⟨sources, generated⟩ := generates_fittingShapes
  have uses : sideSlot.users.head? = some (squareVariant.name, side.name) := rfl
  have emitted : Emits fittingMerged squareVariant.module sideSlot.ty.tokens :=
    .slot List.mem_cons_self List.mem_cons_self List.mem_cons_self uses rfl
  have occurs : Token.relativePaths sideSlot.ty.tokens = [["super", "Length"]] := by decide +kernel
  have leads : squareVariant.module.climb? ["super", "Length"] = some ["shapes", "Length"] := by
    decide +kernel
  obtain ⟨-, kept⟩ := Generates.relative_paths generated
  obtain ⟨-, reads⟩ := kept _ _ emitted
  obtain ⟨-, -, child⟩ := reads ["super", "Length"] (occurs ▸ List.mem_cons_self) _ leads
  exact ⟨sources, generated, emitted, occurs, leads, child (by decide +kernel) (by decide +kernel)⟩

/-- The frame is looked for next to the trait, and not in the module above. -/
theorem relative_paths_frame :
    ∃ sources, Generates (Config.default.withMode .moduleUnits) fittingShapes fittingShape
        fittingMerged sources ∧
      ∃ tokens, Emits fittingMerged fittingShape.module tokens ∧
        ["super", "Frame"] ∈ Token.relativePaths tokens ∧
        fittingShape.module.climb? ["super", "Frame"] = some ["Frame"] ∧
        (wrapperOf fittingMerged).climb? ["super", "Frame"] = some ["shapes", "Frame"] := by
  obtain ⟨sources, generated⟩ := generates_fittingShapes
  have declared : fittingMembers ∈ fittingMerged.members.traits := List.mem_cons_self
  have dispatched : fitMethod ∈ fittingMembers.members.flatMap Member.methods := List.mem_cons_self
  have written : (Ty.reference none false (outerType "Frame")).tokens ∈ fitMethod.typeTokens :=
    List.mem_cons_of_mem _ List.mem_cons_self
  refine ⟨sources, generated, _, .method declared dispatched written, ?_, ?_, ?_⟩
  · decide +kernel
  · decide +kernel
  · decide +kernel

end Generation

end VariantMerge
