import VariantMerge.Proofs.Generation.Success
import VariantMerge.Proofs.Merged.TypeName
import VariantMerge.Proofs.Text.Case

/-!
# Names of the conversion routines

The conversions of a variant are inherent functions of its struct, and each merged type that the
struct is a variant of declares three (`MergedType.conversion_declares`). Their names are made from
the merged type's name in snake case, which does not tell all names apart. So the functions for two
interfaces have distinct names exactly if the names of the merged types have different snake cases
(`Generation.Generates.routines_nodup_iff`): always so for names in camel case, and for names that
differ in more than case and underscores, but not for `FooBar` and `Foo_Bar`
(`Generation.routines_clash`).
-/

namespace VariantMerge

/-- A function of this name, with some visibility and some arguments. -/
def Code.IsFunction (name : String) : Code → Prop
  | .scope header _ => ∃ visibility arguments,
      header = SourceWriter.visibilityPrefix visibility ++ "fn " ++ name ++ "(" ++ arguments
  | _ => False

/-- The three names. -/
def ConversionNames.all (names : ConversionNames) : List String :=
  [names.fromMerged, names.toMerged, names.writeInto]

/-- The code of a conversion has one block of inherent functions, which are called so. -/
def Conversion.Declares (conversion : Conversion) (names : List String) : Prop :=
  ∃ functions, Code.scope ("impl " ++ conversion.variant) (Code.spaced functions) ∈
    conversion.code ∧ List.Forall₂ Code.IsFunction names functions

theorem Conversion.declares_names (conversion : Conversion) :
    conversion.Declares conversion.names.all := by
  refine ⟨[conversion.fromMergedCode, conversion.toMergedCode, conversion.writeIntoCode], ?_, ?_⟩
  · exact List.mem_append_left _ (List.mem_cons_of_mem _ List.mem_cons_self)
  · refine .cons ?_ (.cons ?_ (.cons ?_ .nil))
    · refine ⟨conversion.visibility, conversion.argument ++ (": &" ++ (conversion.merged ++
        ") -> Self")), ?_⟩
      simp only [fromMergedHead, routineText, String.append_assoc]
    · refine ⟨conversion.visibility, "&self) -> " ++ conversion.merged, ?_⟩
      simp only [toMergedHead, routineText, String.append_assoc]
    · refine ⟨conversion.visibility, "&self, merged: &mut " ++ (conversion.merged ++ ")"), ?_⟩
      simp only [writeIntoHead, routineText, String.append_assoc]

namespace MergedType

/-- What the names of the three kinds of routines start with. -/
def routineKinds : List String :=
  ["from_", "to_", "write_into_"]

theorem conversionNamesFor_all (name : String) :
    (conversionNamesFor name).all = routineKinds.map (· ++ Text.snakeCase name) := rfl

/-- The kind of a routine and the rest of its name can be told from the name. -/
theorem routineKinds_append_inj {kind other first second : String} (listed : kind ∈ routineKinds)
    (alsoListed : other ∈ routineKinds) (same : kind ++ first = other ++ second) :
    kind = other ∧ first = second := by
  have nonempty : ∀ kind ∈ routineKinds, kind.toList ≠ [] := by decide
  have apart : ∀ kind ∈ routineKinds, ∀ other ∈ routineKinds,
      kind.toList.head? = other.toList.head? → kind = other := by decide
  have heads := congrArg (fun text => text.toList.head?) same
  simp only [String.toList_append, List.head?_append_of_ne_nil _ (nonempty kind listed),
    List.head?_append_of_ne_nil _ (nonempty other alsoListed)] at heads
  obtain rfl := apart kind listed other alsoListed heads
  exact ⟨rfl, (String.append_right_inj kind).mp same⟩

/-- The routines for two merged types have distinct names if the types differ in snake case. -/
theorem conversionNames_nodup_iff (first second : String) :
    ((conversionNamesFor first).all ++ (conversionNamesFor second).all).Nodup ↔
      Text.snakeCase first ≠ Text.snakeCase second := by
  have each (name : String) : (conversionNamesFor name).all.Nodup := by
    rw [conversionNamesFor_all]
    refine List.Nodup.map_on ?_ (show routineKinds.Nodup by decide)
    exact fun kind listed other alsoListed same =>
      (routineKinds_append_inj listed alsoListed same).1
  rw [List.nodup_append, and_iff_right (each first), and_iff_right (each second),
    conversionNamesFor_all, conversionNamesFor_all]
  constructor
  · intro apart same
    have listed : "to_" ∈ routineKinds := by decide
    exact apart _ (List.mem_map_of_mem listed) _ (List.mem_map_of_mem listed)
      (congrArg ("to_" ++ ·) same)
  · intro different name listed other alsoListed same
    obtain ⟨kind, known, rfl⟩ := List.mem_map.mp listed
    obtain ⟨another, alsoKnown, rfl⟩ := List.mem_map.mp alsoListed
    exact different (routineKinds_append_inj known alsoKnown same).2

end MergedType

namespace Generation

variable {config : Config} {scan : ScanResult} {interface other : Interface}
  {merged otherMerged : MergedType} {sources otherSources : List GeneratedSource}
  {variant : Variant}

/-- Interfaces of different names have merged types of different names. -/
theorem Generates.name_ne (generated : Generates config scan interface merged sources)
    (alsoGenerated : Generates config scan other otherMerged otherSources)
    (different : interface.name ≠ other.name) : merged.name ≠ otherMerged.name := by
  intro same
  obtain ⟨whole, -⟩ := MergedType.nameFor_eq_ok_iff.mp generated.name
  obtain ⟨otherWhole, -⟩ := MergedType.nameFor_eq_ok_iff.mp alsoGenerated.name
  exact different (by rw [whole, otherWhole, same])

/-- The functions that the sources of an interface declare on the struct of a variant. -/
theorem Generates.declares (generated : Generates config scan interface merged sources)
    (member : variant ∈ merged.variants) :
    (merged.conversion config variant).Declares (MergedType.conversionNamesFor merged.name).all ∧
      ∃ source ∈ sources,
        Code.text config.indent (merged.conversion config variant).code = .ok source.text :=
  ⟨(merged.conversion config variant).declares_names, generated.exists_variantSource member⟩

/-- **Conversions of a struct.** A struct that is a variant of two interfaces of different names has
three functions declared for each of them, and their names are distinct exactly if the names of the
merged types have different snake cases. They are distinct if both merged types are called in camel
case, and if their names differ in more than case and underscores. -/
theorem Generates.routines_nodup_iff (generated : Generates config scan interface merged sources)
    (alsoGenerated : Generates config scan other otherMerged otherSources)
    (different : interface.name ≠ other.name) (member : variant ∈ merged.variants)
    (alsoMember : variant ∈ otherMerged.variants) :
    let routines := (MergedType.conversionNamesFor merged.name).all
    let otherRoutines := (MergedType.conversionNamesFor otherMerged.name).all
    ((merged.conversion config variant).Declares routines ∧ ∃ source ∈ sources,
      Code.text config.indent (merged.conversion config variant).code = .ok source.text) ∧
    ((otherMerged.conversion config variant).Declares otherRoutines ∧ ∃ source ∈ otherSources,
      Code.text config.indent (otherMerged.conversion config variant).code = .ok source.text) ∧
    ((routines ++ otherRoutines).Nodup ↔
      Text.snakeCase merged.name ≠ Text.snakeCase otherMerged.name) ∧
    (Text.isCamel merged.name.toList = true → Text.isCamel otherMerged.name.toList = true →
      (routines ++ otherRoutines).Nodup) ∧
    (Text.letters merged.name.toList ≠ Text.letters otherMerged.name.toList →
      (routines ++ otherRoutines).Nodup) := by
  intro routines otherRoutines
  have first := generated.declares member
  have second := alsoGenerated.declares alsoMember
  have apart : (routines ++ otherRoutines).Nodup ↔
      Text.snakeCase merged.name ≠ Text.snakeCase otherMerged.name :=
    MergedType.conversionNames_nodup_iff _ _
  refine ⟨first, second, apart, fun camel also => apart.mpr ?_, fun letters => apart.mpr ?_⟩
  · exact fun same => generated.name_ne alsoGenerated different (Text.snakeCase_injOn camel also same)
  · exact fun same => letters (Text.letters_eq_of_snakeCase same)

/-! ## Interfaces of one struct -/

/-- An interface of this name without members. -/
def bareInterface (name : String) : Interface :=
  ⟨⟨.root, { shapeTrait with name, entries := [] }⟩, .absent⟩

/-- A struct without fields that implements all of these interfaces. -/
def sharedStruct (names : List String) : ScanResult where
  interfaces := names.map bareInterface
  traits := names.map fun name => (bareInterface name).toTraitDecl
  structs := [⟨.root, ⟨[], .everywhere, "Square", .none, .unit⟩, names⟩]
  modules := [(.root, ⟨[], []⟩)]

def sharedVariant : Variant :=
  ⟨"Square", .root, .unit, []⟩

/-- The merged type of such an interface, which is called like it without the prefix. -/
def sharedMerged (name : String) : MergedType where
  name
  typeIdName := name ++ "TypeId"
  interface := "I" ++ name
  module := .root
  visibility := "pub"
  variants := [sharedVariant]
  layout := ⟨[], [("Square", [])]⟩
  members := ⟨[⟨"I" ++ name, .root, []⟩]⟩

theorem generates_sharedStruct (names : List String) (name : String) (listed : "I" ++ name ∈ names)
    (letter : StartsWithLetter name) (other : name ≠ "Square") :
    ∃ sources, Generates .default (sharedStruct names) (bareInterface ("I" ++ name))
      (sharedMerged name) sources := by
  have built : Config.default.indent.unit? = some "    " := rfl
  obtain ⟨sources, written⟩ := exists_sourcesOf built (sharedStruct names) (sharedMerged name)
  refine ⟨sources, MergedType.nameFor_eq_ok_iff.mpr ⟨rfl, letter⟩, ?_, List.cons_ne_nil _ _, rfl, rfl,
    rfl, rfl, rfl, rfl, rfl, written⟩
  have found : (sharedStruct names).variantsOf ("I" ++ name) name = (sharedStruct names).structs := by
    refine List.filter_eq_self.mpr fun decl member => ?_
    obtain rfl := List.mem_singleton.mp member
    exact Bool.and_eq_true_iff.mpr ⟨List.contains_iff_mem.mpr listed, bne_iff_ne.mpr other.symm⟩
  change ((sharedStruct names).variantsOf ("I" ++ name) name).mapM _ = _
  rw [found]
  rfl

/-- The routines for a shape and for a body. -/
theorem routines_nodup_iff_shape :
    ((MergedType.conversionNamesFor "Shape").all ++ (MergedType.conversionNamesFor "Body").all).Nodup
    := by
  obtain ⟨sources, shape⟩ := generates_sharedStruct ["IShape", "IBody"] "Shape" (by decide)
    (by decide +kernel) (by decide)
  obtain ⟨otherSources, body⟩ := generates_sharedStruct ["IShape", "IBody"] "Body" (by decide)
    (by decide +kernel) (by decide)
  have different : (bareInterface "IShape").name ≠ (bareInterface "IBody").name := by decide
  have member : sharedVariant ∈ [sharedVariant] := List.mem_cons_self
  obtain ⟨-, -, -, camel, -⟩ := shape.routines_nodup_iff body different member member
  exact camel (by decide +kernel) (by decide +kernel)

/-- Two interfaces of one struct, for both of which it is given the same three functions. -/
theorem routines_clash :
    ∃ sources otherSources,
      Generates .default (sharedStruct ["IFooBar", "IFoo_Bar"]) (bareInterface "IFooBar")
          (sharedMerged "FooBar") sources ∧
        Generates .default (sharedStruct ["IFooBar", "IFoo_Bar"]) (bareInterface "IFoo_Bar")
          (sharedMerged "Foo_Bar") otherSources ∧
        (MergedType.conversionNamesFor "FooBar").all =
          ["from_foo_bar", "to_foo_bar", "write_into_foo_bar"] ∧
        (MergedType.conversionNamesFor "Foo_Bar").all =
          ["from_foo_bar", "to_foo_bar", "write_into_foo_bar"] := by
  obtain ⟨sources, generated⟩ := generates_sharedStruct ["IFooBar", "IFoo_Bar"] "FooBar" (by decide)
    (by decide +kernel) (by decide)
  obtain ⟨otherSources, alsoGenerated⟩ := generates_sharedStruct ["IFooBar", "IFoo_Bar"] "Foo_Bar"
    (by decide) (by decide +kernel) (by decide)
  exact ⟨sources, otherSources, generated, alsoGenerated, by decide +kernel, by decide +kernel⟩

end Generation

end VariantMerge
