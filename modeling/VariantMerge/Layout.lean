import VariantMerge.Log
import VariantMerge.Variant

/-!
# Slot layout

The fields of all variants are stored in shared slots. Variants are visited in order, and their
fields in order of declaration; a field takes the first slot of its type that its own variant has
not taken yet, and a new slot at the end if there is none. So a layout depends only on the order
of variants and fields, and a later variant never changes what earlier ones were given.
-/

namespace VariantMerge

/-- A place where values of one type are stored, with the variants that use it and the field that
each of them stores there. -/
structure Slot where
  index : Nat
  ty : Ty
  users : List (String × String)

namespace Slot

/-- The name of a slot: the words of its type, and its index. -/
def nameFor (typeText : String) (index : Nat) : String :=
  Text.identFragment typeText ++ "_" ++ toString index

def name (slot : Slot) : String :=
  nameFor slot.ty.text slot.index

/-- Whether the slot stores the type with this key and is not among the `taken` ones. -/
def fits (slot : Slot) (taken : List Nat) (key : String) : Bool :=
  !taken.contains slot.index && slot.ty.key == key

end Slot

/-- The slots of a merged type, and for each variant where its fields went, in order of
declaration. -/
structure SlotLayout where
  slots : List Slot
  placements : List (String × List (String × Nat))

namespace SlotLayout

def empty : SlotLayout := ⟨[], []⟩

/-- A value under a name. A name that is there already keeps its position. -/
def assign (entries : List (String × α)) (name : String) (value : α) : List (String × α) :=
  if entries.any (·.1 == name) then
    entries.map fun entry => if entry.1 == name then (name, value) else entry
  else entries ++ [(name, value)]

/-- The index of the slot for each field of a variant. Of two fields with one name, the later one
counts. -/
def indicesOf (layout : SlotLayout) (variant : String) : List (String × Nat) :=
  ((layout.placements.lookup variant).getD []).foldl
    (fun entries (field, index) => assign entries field index) []

/-- The slot of each field of a variant. -/
def fieldsOf (layout : SlotLayout) (variant : String) : List (String × Slot) :=
  (layout.indicesOf variant).filterMap fun (field, index) =>
    layout.slots[index]?.map fun slot => (field, slot)

/-- The slot in which a variant's field is stored. -/
def slotFor (layout : SlotLayout) (variant field : String) : Option Slot :=
  ((layout.indicesOf variant).lookup field).bind fun index => layout.slots[index]?

/-- The slots while the fields of one variant are being placed. -/
structure Placing where
  slots : List Slot
  placed : List (String × Nat)

/-- The indices of the slots that the variant has taken. -/
def Placing.taken (placing : Placing) : List Nat :=
  placing.placed.map (·.2)

/-- Places a field: into the first slot that fits, or into a new one. -/
def Placing.place (variant : String) (placing : Placing) (field : VariantField) : Placing :=
  match placing.slots.find? (·.fits placing.taken field.ty.key) with
  | some free =>
    ⟨placing.slots.map fun slot =>
      if slot.index = free.index then
        { slot with users := slot.users ++ [(variant, field.name)] }
      else slot,
      placing.placed ++ [(field.name, free.index)]⟩
  | none =>
    let index := placing.slots.length
    ⟨placing.slots ++ [⟨index, field.ty, [(variant, field.name)]⟩],
      placing.placed ++ [(field.name, index)]⟩

/-- Places all fields of a variant. -/
def addVariant (layout : SlotLayout) (variant : Variant) : Except Failure SlotLayout :=
  if layout.placements.any (·.1 == variant.name) then
    .error (.unsupportedVariant variant.name .duplicateVariant)
  else
    let placing := variant.fields.foldl (Placing.place variant.name) ⟨layout.slots, []⟩
    .ok ⟨placing.slots, layout.placements ++ [(variant.name, placing.placed)]⟩

/-- The layout of a list of variants, unless two of them have one name. -/
def ofVariants (variants : List Variant) : Except Failure SlotLayout :=
  variants.foldlM addVariant empty

/-- The variants before the first one whose name was there already. -/
def distinctPart (seen : List String) : List Variant → List Variant
  | [] => []
  | variant :: rest =>
    if seen.contains variant.name then []
    else variant :: distinctPart (variant.name :: seen) rest

/-- The placements as events. Those before a failure are told as well. -/
def events (variants : List Variant) : List Event :=
  match ofVariants (distinctPart [] variants) with
  | .error _ => []
  | .ok layout =>
    layout.placements.flatMap fun (variant, placed) =>
      placed.map fun (field, index) =>
        ⟨.trace, "Assigned field to slot",
          [("variant", .text variant), ("field", .text field),
            ("slot", .text ((layout.slots[index]?.map Slot.name).getD ""))]⟩

end SlotLayout

end VariantMerge
