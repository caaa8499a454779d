import VariantMerge.Proofs.Conversion.Reading
import VariantMerge.Proofs.Dispatch.Reading
import VariantMerge.Proofs.Generation.Drafts
import VariantMerge.Proofs.Grammar.Declarations
import VariantMerge.Proofs.Hierarchy.Methods
import VariantMerge.Proofs.Hierarchy.Reachable
import VariantMerge.Proofs.Layout.FieldNames

/-!
# The names in emitted code

What is emitted for a name is made of characters of names, so emitted code can be read back. The names of
variants, traits, methods, parameters and named fields are read from the units; a tuple's fields and
unnamed parameters are called by numbers, slots by fragments of their types, and the routines of a
conversion by the merged type's name. `Generation.Generates.isNamed` gathers this for a merged type, and
`MergedType.IsNamed.dispatch` and `MergedType.IsNamed.conversion` say what it means for its code. The names
that a file leads to are gathered in an outline (`Generation.exists_generates_of_read`).
-/

namespace VariantMerge

namespace Text

/-- Two names make one. -/
theorem isNameText_append {first second : String} (plain : isNameText first = true)
    (also : isNameText second = true) : isNameText (first ++ second) = true := by
  rw [isNameText, String.toList_append, List.all_append, Bool.and_eq_true]
  exact ⟨plain, also⟩

/-- Letters, digits and underscores make a name. -/
theorem isNameText_of_isWordChar {text : String} (all : ∀ c ∈ text.toList, isWordChar c = true) :
    isNameText text = true := by
  refine List.all_eq_true.mpr fun c listed => ?_
  obtain letter | sign := Bool.or_eq_true_iff.mp (all c listed)
  · simp [isNameChar, isIdentContinue, letter]
  · simp [isNameChar, isIdentContinue, sign]

/-- So do the digits of a number. -/
theorem isNameText_toString (n : Nat) : isNameText (toString n) = true := by
  refine isNameText_of_isWordChar fun c listed => ?_
  have digit : c.isDigit = true := by
    have among : c ∈ Nat.toDigits 10 n := by rwa [Nat.toString_eq_repr, Nat.toList_repr] at listed
    exact Nat.isDigit_of_mem_toDigits (by decide) (by decide) among
  simp [isWordChar, Char.isAlphanum, digit]

/-- A name in snake case is a name. -/
theorem isNameText_snakeCase {name : String} (plain : isNameText name = true) :
    isNameText (snakeCase name) = true := by
  have lowers : ∀ c : Char, c.isUpper = true → isNameChar c.toLower = true := by
    intro c upper
    have letter : c.toLower.isAlphanum = true := by
      simp [Char.isAlphanum, Char.isAlpha_toLower_eq_isAlpha, isAlpha_of_isUpper upper]
    simp [isNameChar, isIdentContinue, letter]
  refine List.all_eq_true.mpr ?_
  rw [snakeCase, String.toList_ofList]
  exact all_snakeFrom (p := fun c => isNameChar c = true) rfl lowers (List.all_eq_true.mp plain) none

end Text

/-! ## Variants and methods -/

/-- All names in the variant are made of characters of names. -/
structure Variant.IsNamed (variant : Variant) : Prop where
  name : Text.isNameText variant.name = true
  fields : ∀ field ∈ variant.fields, Text.isNameText field.name = true

/-- A struct that was read becomes a variant whose fields have names: its own, or their positions. -/
theorem StructItem.IsRead.isNamed {item : StructItem} (read : item.IsRead) {module : ModulePath}
    {variant : Variant} (made : Variant.ofStruct item module = .ok variant) : variant.IsNamed where
  name := by
    rw [(Variant.ofStruct_declared made).1]
    exact read.name
  fields := by
    rw [Variant.ofStruct_fields made]
    have named := read.fields
    cases shape : item.fields with
    | named fields trailing =>
        rw [shape] at named
        intro field listed
        obtain ⟨declared, present, called⟩ := List.mem_filterMap.mp listed
        obtain ⟨name, there, rfl⟩ := Option.map_eq_some_iff.mp called
        exact named declared present name there
    | tuple fields trailing =>
        intro field listed
        obtain ⟨⟨declared, position⟩, -, rfl⟩ := List.mem_map.mp listed
        exact Text.isNameText_toString position
    | unit => exact nofun

/-- All names that are passed on to the method are made of characters of names. -/
structure Method.IsNamed (method : Method) : Prop where
  name : Text.isNameText method.name = true
  generics : method.generics.IsNamed
  params : ∀ param ∈ method.params, Text.isNameText param.name = true

/-- A parameter is called by its pattern, or by its position. -/
theorem Param.nameFor_isNamed {pattern : Pattern} (named : pattern.IsNamed) (position : Nat) :
    Text.isNameText (nameFor pattern position) = true := by
  unfold nameFor
  cases called : pattern.name? with
  | none => exact Text.isNameText_append (by decide) (Text.isNameText_toString position)
  | some name => exact named name called

/-- A method keeps the names of its signature, and has numbers for parameters without one. -/
theorem Signature.AcceptedAs.isNamed {signature : Signature} {method : Method}
    (accepted : signature.AcceptedAs method) (named : signature.IsNamed) : method.IsNamed where
  name := accepted.name ▸ named.name
  generics := accepted.generics ▸ named.generics
  params := by
    intro param listed
    have related := (Except.mapM_eq_ok_iff.mp accepted.params).flip
    obtain ⟨⟨input, position⟩, given, made⟩ := exists_of_forall₂ related listed
    obtain ⟨attributes, pattern, rfl, -, called, -⟩ := Param.ofInput_eq_ok_iff.mp made
    have written := List.mem_of_mem_drop (List.fst_mem_of_mem_zipIdx given)
    rw [called]
    exact Param.nameFor_isNamed (named.inputs _ written) position

/-- All names that are emitted for the merged type are made of characters of names. -/
structure MergedType.IsNamed (merged : MergedType) : Prop where
  name : Text.isNameText merged.name = true
  variants : ∀ variant ∈ merged.variants, variant.IsNamed
  traits : ∀ declared ∈ merged.members.traits, Text.isNameText declared.name = true
  methods : ∀ declared ∈ merged.members.traits,
    ∀ method ∈ declared.members.flatMap Member.methods, method.IsNamed

namespace MergedType.IsNamed

variable {merged : MergedType} (named : merged.IsNamed)

include named

/-- The routines are called by the merged type. -/
theorem routines : Text.isNameText merged.conversionNames.fromMerged = true ∧
    Text.isNameText merged.conversionNames.toMerged = true ∧
    Text.isNameText merged.conversionNames.writeInto = true := by
  have snake := Text.isNameText_snakeCase named.name
  exact ⟨Text.isNameText_append (by decide) snake, Text.isNameText_append (by decide) snake,
    Text.isNameText_append (by decide) snake⟩

/-- **Dispatch is named.** All names in the arms of a dispatching method are made of characters of
names. -/
theorem dispatch {declared : TraitMembers} (inHierarchy : declared ∈ merged.members.traits)
    {method : Method} (listed : method ∈ declared.members.flatMap Member.methods) :
    (method.dispatch merged.conversionNames declared.name
      (merged.variants.map Variant.name)).IsNamed := by
  have called := named.methods declared inHierarchy method listed
  obtain ⟨fromMerged, -, writeInto⟩ := named.routines
  have call {variant : String} (plain : Text.isNameText variant = true) :
      (method.callOn declared.name variant).IsNamed := by
    refine ⟨plain, named.traits declared inHierarchy, called.name, ?_,
      List.forall_mem_map.mpr called.params⟩
    intro name passed
    obtain ⟨param, given, argument⟩ := List.mem_filterMap.mp passed
    exact called.generics param given name argument
  have steps {variant : String} (plain : Text.isNameText variant = true) :
      ∀ step ∈ method.stepsFor merged.conversionNames declared.name variant, step.IsNamed := by
    have rebuild {isMut fromCopy : Bool} : ArmStep.IsNamed
        (.rebuild variant merged.conversionNames.fromMerged isMut fromCopy) := ⟨plain, fromMerged⟩
    unfold Method.stepsFor
    split
    · simp only [List.forall_mem_cons]
      exact ⟨rebuild, call plain, writeInto, trivial, nofun⟩
    · simp only [List.forall_mem_cons]
      exact ⟨rebuild, call plain, writeInto, nofun⟩
    · simp only [List.forall_mem_cons]
      exact ⟨rebuild, call plain, nofun⟩
    · simp only [List.forall_mem_cons]
      exact ⟨rebuild, call plain, nofun⟩
  constructor
  · intro arm emitted
    obtain ⟨variant, among, rfl⟩ := List.mem_map.mp emitted
    obtain ⟨declaring, isVariant, rfl⟩ := List.mem_map.mp among
    have plain := (named.variants declaring isVariant).name
    exact ⟨plain, steps plain⟩
  · intro name reset
    obtain ⟨param, out, rfl⟩ := List.mem_map.mp reset
    exact called.params param (List.mem_of_mem_filter out)

/-- **Conversions are named.** All names in the conversions of a variant are made of characters of
names. -/
theorem conversion {config : Config} {variant : Variant}
    (convertible : Convertible config merged variant) :
    (merged.conversion config variant).IsNamed := by
  have called := named.variants variant convertible.member
  obtain ⟨fromMerged, toMerged, writeInto⟩ := named.routines
  have slots : ∀ entry ∈ merged.layout.fieldsOf variant.name,
      Text.isNameText entry.1 = true ∧ Text.isNameText entry.2.name = true := by
    intro entry listed
    refine ⟨?_, Text.isNameText_of_isWordChar (Slot.all_nameFor _ _)⟩
    have declared : entry.1 ∈ variant.fields.map VariantField.name := by
      rw [← convertible.layout.fieldsOf_names convertible.member convertible.distinct]
      exact List.mem_map_of_mem listed
    obtain ⟨field, present, same⟩ := List.mem_map.mp declared
    exact same ▸ called.fields field present
  have assignments : ∀ assignment ∈ (merged.conversion config variant).writes,
      assignment.IsNamed := by
    refine List.forall_mem_cons.mpr ⟨called.name, ?_⟩
    simp only [List.map_map, List.forall_mem_map]
    exact fun entry listed => ⟨(slots entry listed).2, (slots entry listed).1⟩
  exact {
    fromMerged, toMerged, writeInto
    reads := List.forall_mem_map.mpr slots
    creates := assignments
    writes := assignments }

end MergedType.IsNamed

/-! ## Generated types -/

namespace Generation

variable {config : Config} {units : List SourceUnit} {interface : Interface} {merged : MergedType}
  {sources : List GeneratedSource}

/-- **Generated types are named.** All names that are emitted for an interface of units that were read
are made of characters of names. -/
theorem Generates.isNamed (read : ∀ unit ∈ units, unit.IsRead)
    (scanned : interface ∈ (ScanResult.ofUnits config.marker units).interfaces)
    (generated : Generates config (ScanResult.ofUnits config.marker units) interface merged
      sources) : merged.IsNamed := by
  have own : interface.item.IsRead := by
    obtain ⟨decl, listed, marked⟩ := List.mem_filterMap.mp scanned
    obtain ⟨mark, -, rfl⟩ := Option.map_eq_some_iff.mp marked
    have trait_ : decl ∈ (ScanResult.ofUnits config.marker units).traits := listed
    exact ScanResult.isRead_of_mem_traits read trait_
  have inHierarchy {decl : TraitDecl} (included : Hierarchy.Includes
      (ScanResult.ofUnits config.marker units) interface decl) : decl.item.IsRead := by
    cases included with
    | own => exact own
    | bound _ _ _ leads =>
        unfold Hierarchy.declOf? at leads
        split at leads
        · cases leads
          exact own
        · exact ScanResult.isRead_of_mem_traits read (List.mem_of_find?_eq_some leads)
  obtain ⟨included, -, -⟩ := Hierarchy.collect_includes generated.members
  constructor
  · obtain ⟨whole, -⟩ := MergedType.nameFor_eq_ok_iff.mp generated.name
    have plain : Text.isNameText interface.item.name = true := own.name
    change interface.item.name = _ at whole
    rw [whole, Text.isNameText, String.toList_append, List.all_append, Bool.and_eq_true] at plain
    exact plain.2
  · intro variant listed
    have made := (Except.mapM_eq_ok_iff.mp generated.variants).flip
    obtain ⟨decl, found, built⟩ := exists_of_forall₂ made listed
    exact (ScanResult.isRead_of_mem_structs read (List.mem_of_mem_filter found)).isNamed built
  · intro declared listed
    obtain ⟨decl, part, made⟩ := included declared listed
    rw [(TraitMembers.ofTrait_declared made).1]
    exact (inHierarchy part).name
  · intro declared listed method provided
    obtain ⟨decl, part, made⟩ := included declared listed
    obtain ⟨attributes, signature, body, entry, accepted⟩ :=
      TraitMembers.ofTrait_methods made method provided
    have signed : signature.IsRead := (inHierarchy part).entries _ entry
    exact (Method.ofSignature_eq_ok_iff.mp accepted).isNamed signed.named

/-! ## Outlines -/

/-- What a method is called with its parameters, how it takes its value, and whether it returns one. -/
structure MethodOutline where
  name : String
  receiver : ReceiverKind
  params : List String
  returnsValue : Bool
  deriving DecidableEq

/-- The names in a merged type: those of its variants with their fields, of its slots, and of the methods
of each trait. -/
structure Outline where
  variants : List (String × List String)
  slots : List String
  methods : List (String × List MethodOutline)
  deriving DecidableEq

def MethodOutline.of (method : Method) : MethodOutline :=
  ⟨method.name, method.receiver, method.params.map Param.name, method.returnsValue⟩

def outline (merged : MergedType) : Outline where
  variants := merged.variants.map fun variant => (variant.name, variant.fields.map VariantField.name)
  slots := merged.layout.slots.map Slot.name
  methods := merged.members.traits.map fun declared =>
    (declared.name, (declared.members.flatMap Member.methods).map MethodOutline.of)

section Outline

variable {merged : MergedType} {seen : Outline} (outlined : outline merged = seen)

include outlined

/-- A type has the variants that its outline says. -/
theorem exists_variant {name : String} {fields : List String}
    (listed : (name, fields) ∈ seen.variants) :
    ∃ variant ∈ merged.variants, variant.name = name ∧
      variant.fields.map VariantField.name = fields := by
  rw [← outlined] at listed
  obtain ⟨variant, declared, same⟩ := List.mem_map.mp listed
  exact ⟨variant, declared, Prod.mk.inj same⟩

/-- A type whose outline has one trait has the methods that it says. -/
theorem exists_methods {trait_ : String} {methods : List MethodOutline}
    (alone : seen.methods = [(trait_, methods)]) :
    ∃ declared, merged.members.traits = [declared] ∧
      (declared.members.flatMap Member.methods).map MethodOutline.of = methods := by
  have all := (congrArg Outline.methods outlined).trans alone
  obtain ⟨declared, traits, same⟩ := List.map_eq_singleton_iff.mp all
  exact ⟨declared, traits, (Prod.mk.inj same).2⟩

end Outline

/-- The outlines of what is generated for each interface in a file of these characters. -/
def outlinesIn (chars : List Char) : Option (List (Option (Option Outline))) :=
  (Source.parseChars Parser.items (Source.dropShebang (Source.dropMark chars))).toOption.map
    fun read =>
      let scan := ScanResult.ofUnits Config.default.marker [⟨"crate", .root, read.2⟩]
      scan.interfaces.map fun interface =>
        (mergedOf .default scan interface).toOption.map (Option.map outline)

/-- A file with one interface, for which a type is generated. -/
theorem exists_generates_of_read (text : String) {chars : List Char} (spelled : text.toList = chars)
    {outlined : Outline} (seen : outlinesIn chars = some [some (some outlined)]) :
    ∃ units interface merged sources,
      (∀ unit ∈ units, SourceUnit.IsRead unit) ∧
        interface ∈ (ScanResult.ofUnits Config.default.marker units).interfaces ∧
        Generates .default (ScanResult.ofUnits Config.default.marker units) interface merged
          sources ∧ outline merged = outlined := by
  obtain ⟨read, parsed, seen⟩ := Except.exists_of_toOption_map seen
  obtain ⟨interface, alone, seen⟩ := List.map_eq_singleton_iff.mp seen
  obtain ⟨made, merges, seen⟩ := Except.exists_of_toOption_map seen
  obtain ⟨merged, rfl, seen⟩ := Option.map_eq_some_iff.mp seen
  have built : Config.default.indent.unit? = some "    " := rfl
  obtain ⟨sources, generated⟩ := Generates.of_mergedOf built merges
  have unit : SourceUnit.parse "crate" .root text = .ok ⟨"crate", .root, read.2⟩ := by
    rw [SourceUnit.parse, Source.parseFile, spelled, parsed]
    rfl
  refine ⟨_, interface, merged, sources, ?_, ?_, generated, Option.some.inj seen⟩
  · exact List.forall_mem_singleton.mpr (.file unit)
  · rw [alone]
    exact List.mem_singleton_self interface

/-! ## Two shapes -/

/-- A trait with a method that changes a shape, and two structs that implement it: one with named fields,
and a tuple. -/
def shapesText : String :=
  "#[polymorphic_struct]
trait IShape \x7b
    fn grow(&mut self, by: f32, hit: &mut bool) -> bool;
\x7d
struct Circle \x7b radius: f32 \x7d
struct Square(bool, f32);
impl IShape for Circle \x7b\x7d
impl IShape for Square \x7b\x7d"

/-- The outline of the shapes. -/
def shapesOutline : Outline where
  variants := [("Circle", ["radius"]), ("Square", ["0", "1"])]
  slots := ["f32_0", "bool_1"]
  methods := [("IShape", [⟨"grow", .exclusive, ["by", "hit"], true⟩])]

set_option maxRecDepth 8000 in
/-- The shapes are read, and generate. -/
theorem shapes_read : ∃ units interface merged sources,
    (∀ unit ∈ units, SourceUnit.IsRead unit) ∧
      interface ∈ (ScanResult.ofUnits Config.default.marker units).interfaces ∧
      Generates .default (ScanResult.ofUnits Config.default.marker units) interface merged
        sources ∧ outline merged = shapesOutline := by
  refine exists_generates_of_read shapesText String.toList_ofList ?_
  decide +kernel

section Shapes

variable {merged : MergedType} (outlined : outline merged = shapesOutline)

include outlined

/-- The shapes share a number, and one has a flag. -/
theorem shapes_slots : merged.layout.slots.map Slot.name = ["f32_0", "bool_1"] :=
  congrArg Outline.slots outlined

/-- The shapes have a method that changes them. -/
theorem shapes_grow : ∃ declared ∈ merged.members.traits, ∃ member ∈ declared.members,
    ∃ method ∈ member.methods, method.receiver = .exclusive ∧
      method.params.map Param.name = ["by", "hit"] ∧ method.returnsValue = true := by
  obtain ⟨declared, traits, methods⟩ := exists_methods outlined rfl
  obtain ⟨grow, only, same⟩ := List.map_eq_singleton_iff.mp methods
  obtain ⟨-, receiver, params, returns⟩ := MethodOutline.mk.inj same
  obtain ⟨member, listed, accessor⟩ := List.mem_flatMap.mp (only ▸ List.mem_singleton_self grow)
  exact ⟨declared, traits ▸ List.mem_singleton_self declared, member, listed, grow, accessor,
    receiver, params, returns⟩

end Shapes

end Generation

end VariantMerge
