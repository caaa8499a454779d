import VariantMerge.Merged
import VariantMerge.Writer

/-!
# Declarations of a merged type

The discriminant, an enumeration of the variants' names, and the merged struct, which has a field
for the discriminant and one for each slot.
-/

namespace VariantMerge

/-- The enumeration that tells which variant a merged value holds. -/
structure Discriminant where
  merged : String
  visibility : String
  name : String
  derives : List String
  members : List String
  deriving DecidableEq, Repr

/-- Writes the enumeration with what stands before it. -/
def Discriminant.emit (discriminant : Discriminant) (w : SourceWriter) :
    Except Failure SourceWriter :=
  let headed := w.line ("/// Discriminant of [`" ++ discriminant.merged ++ "`].")
  (headed.derives discriminant.derives).emitEnumeration discriminant.visibility discriminant.name
    discriminant.members

/-- The struct whose values stand for all variants, with the names and types of its fields. -/
structure MergedStruct where
  interface : String
  visibility : String
  name : String
  derives : List String
  fields : List (String × String)
  deriving DecidableEq, Repr

namespace MergedStruct

/-- The head of the struct's declaration. -/
def headText (merged : MergedStruct) : String :=
  SourceWriter.visibilityPrefix merged.visibility ++ "struct " ++ merged.name

/-- Writes the struct with what stands before it. -/
def emit (merged : MergedStruct) (w : SourceWriter) : Except Failure SourceWriter :=
  let headed := w.line ("/// Flattened value of every `" ++ merged.interface ++ "` implementor.")
  let opened := (headed.derives merged.derives).beginScope merged.headText
  (merged.fields.foldl (fun w (name, type) => w.field "pub" name type) opened).endScope

end MergedStruct

namespace MergedType

/-- The derives that make a type serialisable. -/
def serialDerives (config : Config) : List String :=
  if config.serializable then ["::serde::Serialize", "::serde::Deserialize"] else []

/-- Every derive of the settings once, after `Default`. -/
def plainDerives (config : Config) : List String :=
  config.derives.foldl (fun names name =>
    if names.contains name then names else names ++ [name]) ["Default"]

def discriminant (merged : MergedType) (config : Config) : Discriminant where
  merged := merged.name
  visibility := merged.visibility
  name := merged.typeIdName
  derives := ["Clone", "Copy", "Debug", "PartialEq", "Eq", "Hash"] ++ serialDerives config
  members := merged.variants.map Variant.name

def mergedStruct (merged : MergedType) (config : Config) : MergedStruct where
  interface := merged.interface
  visibility := merged.visibility
  name := merged.name
  derives := plainDerives config ++ serialDerives config
  fields :=
    (config.typeIdField, "::core::option::Option<" ++ merged.typeIdName ++ ">") ::
      merged.layout.slots.map fun slot => (slot.name, slot.ty.text)

/-- Writes the declarations of the discriminant and of the struct. -/
def emitDeclaration (merged : MergedType) (config : Config) (w : SourceWriter) :
    Except Failure SourceWriter := do
  let declared ← (merged.discriminant config).emit w
  (merged.mergedStruct config).emit declared.blank

end MergedType

end VariantMerge
