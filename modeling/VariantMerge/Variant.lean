import VariantMerge.Failure
import VariantMerge.Syntax.Item
import VariantMerge.Text.Blank
import VariantMerge.Text.Case
import VariantMerge.Token.Render

/-!
# Variants

A struct that implements an interface becomes a variant of its merged type: its name, its module,
and its fields with their types.
-/

namespace VariantMerge

namespace Ty

/-- The type as compact text. -/
def text (ty : Ty) : String :=
  Token.render ty.tokens

/-- The type's text without blanks. Types with the same key are taken for the same type. -/
def key (ty : Ty) : String :=
  String.ofList (ty.text.toList.filter fun c => !Text.isBlank c)

end Ty

/-- The three ways in which a struct declares its fields. -/
inductive FieldsShape where
  | named
  | tuple
  | unit
  deriving DecidableEq, Repr, Inhabited

/-- A declared field. In a tuple, its name is its position. -/
structure VariantField where
  name : String
  ty : Ty

/-- A struct that implements an interface. -/
structure Variant where
  name : String
  module : ModulePath
  shape : FieldsShape
  fields : List VariantField

namespace Variant

/-- The fields of a struct with the shape in which it declares them. -/
def fieldsOf : FieldList → FieldsShape × List VariantField
  | .named fields _ =>
    (.named, fields.filterMap fun field => field.name.map fun name => ⟨name, field.ty⟩)
  | .tuple fields _ =>
    (.tuple, fields.zipIdx.map fun (field, position) => ⟨toString position, field.ty⟩)
  | .unit => (.unit, [])

/-- The variant that a struct becomes, unless the struct has generic parameters. -/
def ofStruct (item : StructItem) (module : ModulePath) : Except Failure Variant :=
  if item.generics.params.isEmpty then
    let (shape, fields) := fieldsOf item.fields
    .ok ⟨item.name, module, shape, fields⟩
  else .error (.unsupportedVariant item.name .genericStruct)

end Variant

end VariantMerge
