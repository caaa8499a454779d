import VariantMerge.Emit.Dispatch
import VariantMerge.Merged

/-!
# Conversions between a variant and its merged type

A variant is read from the slots that its fields were given, turned into a merged value of its
own, or written over an existing one. The three routines are lists of assignments between fields
and slots, which have a meaning apart from their text.
-/

namespace VariantMerge

/-- What is assigned in a merged value: the discriminant, or a slot from a field. -/
inductive SlotAssignment where
  | tag (variant : String)
  | slot (slot field : String)
  deriving DecidableEq, Repr

/-- The conversions of one variant. -/
structure Conversion where
  variant : String
  merged : String
  visibility : String
  typeIdField : String
  typeIdName : String
  names : ConversionNames
  /-- The fields of the variant with the slots that they are read from. -/
  reads : List (String × String)
  /-- What a fresh merged value is given; all else is the default. -/
  creates : List SlotAssignment
  /-- What is changed in an existing merged value; all else stays. -/
  writes : List SlotAssignment
  emitFromImpls : Bool
  deriving DecidableEq, Repr

namespace Conversion

/-- A copy of a value behind a reference. -/
def cloneOf (place : String) : String :=
  "::core::clone::Clone::clone(&" ++ place ++ ")"

/-- The discriminant's value for a variant. -/
def tagText (conversion : Conversion) (variant : String) : String :=
  Dispatch.someVariant ++ "(" ++ conversion.typeIdName ++ "::" ++ variant ++ ")"

/-- The place in the merged value and the value that it gets. -/
def placeAndValue (conversion : Conversion) : SlotAssignment → String × String
  | .tag variant => (conversion.typeIdField, conversion.tagText variant)
  | .slot slot field => (slot, cloneOf ("self." ++ field))

/-- What the routine that reads the variant calls the merged value. -/
def argument (conversion : Conversion) : String :=
  if conversion.reads.isEmpty then "_merged" else "merged"

/-- The beginning of a routine's head, up to its arguments. -/
def routineText (conversion : Conversion) (name : String) : String :=
  SourceWriter.visibilityPrefix conversion.visibility ++ "fn " ++ name ++ "("

def fromMergedHead (conversion : Conversion) : String :=
  conversion.routineText conversion.names.fromMerged ++ conversion.argument ++ ": &" ++
    conversion.merged ++ ") -> Self"

def toMergedHead (conversion : Conversion) : String :=
  conversion.routineText conversion.names.toMerged ++ "&self) -> " ++ conversion.merged

def writeIntoHead (conversion : Conversion) : String :=
  conversion.routineText conversion.names.writeInto ++ "&self, merged: &mut " ++
    conversion.merged ++ ")"

/-- A field of the variant with the slot that it is read from. -/
def readText (field slot : String) : String :=
  field ++ ": " ++ cloneOf ("merged." ++ slot) ++ ","

/-- A field of a fresh merged value with what it is given. -/
def createText (conversion : Conversion) (assignment : SlotAssignment) : String :=
  let (place, value) := conversion.placeAndValue assignment
  place ++ ": " ++ value ++ ","

/-- An assignment to a field of a merged value. -/
def writeText (conversion : Conversion) (assignment : SlotAssignment) : String :=
  let (place, value) := conversion.placeAndValue assignment
  "merged." ++ place ++ " = " ++ value ++ ";"

/-- Writes the routine that reads the variant from a merged value. -/
def emitFromMerged (conversion : Conversion) (w : SourceWriter) : Except Failure SourceWriter := do
  let opened := (w.beginScope conversion.fromMergedHead).beginScope "Self"
  let filled := conversion.reads.foldl (fun w (field, slot) => w.line (readText field slot)) opened
  (← filled.endScope).endScope

/-- Writes the routine that makes a merged value of the variant. -/
def emitToMerged (conversion : Conversion) (w : SourceWriter) : Except Failure SourceWriter := do
  let opened := (w.beginScope conversion.toMergedHead).beginScope conversion.merged
  let filled := conversion.creates.foldl (fun w assignment =>
    w.line (conversion.createText assignment)) opened
  (← (filled.line (".." ++ Dispatch.defaultValue)).endScope).endScope

/-- Writes the routine that writes the variant over a merged value. -/
def emitWriteInto (conversion : Conversion) (w : SourceWriter) : Except Failure SourceWriter :=
  let opened := w.beginScope conversion.writeIntoHead
  (conversion.writes.foldl (fun w assignment => w.line (conversion.writeText assignment))
    opened).endScope

/-- Writes an implementation with one function that consists of one line. -/
def emitSmallImpl (head function line : String) (w : SourceWriter) :
    Except Failure SourceWriter := do
  let opened := (w.beginScope head).beginScope function
  (← (opened.line line).endScope).endScope

/-- Writes the conversions by `From`, which call the routines. -/
def emitFromTraits (conversion : Conversion) (w : SourceWriter) : Except Failure SourceWriter := do
  let into ← emitSmallImpl
    ("impl ::core::convert::From<" ++ conversion.variant ++ "> for " ++ conversion.merged)
    ("fn from(value: " ++ conversion.variant ++ ") -> Self")
    ("value." ++ conversion.names.toMerged ++ "()") w.blank
  emitSmallImpl
    ("impl ::core::convert::From<&" ++ conversion.merged ++ "> for " ++ conversion.variant)
    ("fn from(merged: &" ++ conversion.merged ++ ") -> Self")
    ("Self::" ++ conversion.names.fromMerged ++ "(merged)") into.blank

/-- Writes the conversions of the variant. -/
def emit (conversion : Conversion) (w : SourceWriter) : Except Failure SourceWriter := do
  let opened := (w.attr "allow(clippy::clone_on_copy, clippy::needless_update)").beginScope
    ("impl " ++ conversion.variant)
  let reading ← conversion.emitFromMerged opened
  let creating ← conversion.emitToMerged reading.blank
  let writing ← conversion.emitWriteInto creating.blank
  let closed ← writing.endScope
  if conversion.emitFromImpls then conversion.emitFromTraits closed else return closed

end Conversion

namespace MergedType

/-- The conversions of one of the merged type's variants. -/
def conversion (merged : MergedType) (config : Config) (variant : Variant) : Conversion :=
  let fields := (merged.layout.fieldsOf variant.name).map fun (field, slot) => (field, slot.name)
  let assignments := SlotAssignment.tag variant.name ::
    fields.map fun (field, slot) => .slot slot field
  { variant := variant.name
    merged := merged.name
    visibility := merged.visibility
    typeIdField := config.typeIdField
    typeIdName := merged.typeIdName
    names := merged.conversionNames
    reads := fields
    creates := assignments
    writes := assignments
    emitFromImpls := config.emitFromImpls }

end MergedType

end VariantMerge
