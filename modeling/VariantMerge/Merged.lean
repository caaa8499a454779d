import VariantMerge.Config
import VariantMerge.Hierarchy
import VariantMerge.Layout

/-!
# Merged types

The value type that stands for all variants of an interface: its names, its variants with the
layout of their fields, and the members that it dispatches.
-/

namespace VariantMerge

/-- The value type generated for an interface. -/
structure MergedType where
  name : String
  /-- The name of the discriminant's type. -/
  typeIdName : String
  interface : String
  module : ModulePath
  /-- The visibility of the type and of the conversions, as it is written. -/
  visibility : String
  variants : List Variant
  layout : SlotLayout
  members : MemberSet

/-- The names of the three conversions between a variant and a merged type. -/
structure ConversionNames where
  fromMerged : String
  toMerged : String
  writeInto : String
  deriving DecidableEq, Repr

namespace MergedType

/-- The characters after a beginning that they have to have. -/
def stripBeginning? : List Char → List Char → Option (List Char)
  | [], cs => some cs
  | _ :: _, [] => none
  | c :: expected, d :: cs => if c == d then stripBeginning? expected cs else none

/-- The name of an interface without its prefix. It has to start with an ASCII letter. -/
def nameFor (interface expected : String) : Except Failure String :=
  match stripBeginning? expected.toList interface.toList with
  | none => .error (.invalidName interface (.missingPrefix expected))
  | some rest =>
    if rest.head?.any Char.isAlpha then .ok (String.ofList rest)
    else .error (.invalidName interface (.unusableName (String.ofList rest)))

/-- The names of the conversions for a merged type of this name. -/
def conversionNamesFor (name : String) : ConversionNames :=
  let snake := Text.snakeCase name
  ⟨"from_" ++ snake, "to_" ++ snake, "write_into_" ++ snake⟩

def conversionNames (merged : MergedType) : ConversionNames :=
  conversionNamesFor merged.name

/-- The modules that the hierarchy is declared in: those of the interface, of its traits and of
its variants. -/
def involved (merged : MergedType) : List ModulePath :=
  merged.module :: merged.members.traits.map TraitMembers.module ++
    merged.variants.map Variant.module

end MergedType

end VariantMerge
