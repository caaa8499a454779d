import VariantMerge.Proofs.Layout.Soundness
import VariantMerge.Proofs.Token.Lexeme

/-!
# The types of fields in one slot

A slot is shared by fields whose types have its key. So the types are written alike but for blanks,
and a slot has exactly the type of each field in it if they are told by their keys: if their lexemes
are legible and no word of them stands directly after a word or a lifetime
(`SlotLayout.ofVariants_types`). A word that does can be glued to what is before it without a change
of the key, and then fields of two types are stored in one slot
(`SlotLayout.ofVariants_glues_words`).
-/

namespace VariantMerge

open Lexeme (Legible glue)

/-- A type that is told by its key: no word can be glued to what is before it. -/
structure Ty.IsTold (ty : Ty) : Prop where
  legible : Legible ty.lexemes
  unglued : glue ty.lexemes = ty.lexemes

instance (ty : Ty) : Decidable ty.IsTold :=
  decidable_of_iff (Legible ty.lexemes ∧ glue ty.lexemes = ty.lexemes)
    ⟨fun ⟨legible, unglued⟩ => ⟨legible, unglued⟩, fun ⟨legible, unglued⟩ => ⟨legible, unglued⟩⟩

namespace SlotLayout

/-- Every user of a slot is a field with the slot's key. -/
theorem Invariant.exists_user {variants : List Variant} {layout : SlotLayout}
    (valid : Invariant variants layout) {slot : Slot} (stored : slot ∈ layout.slots)
    {user : String × String} (uses : user ∈ slot.users) :
    ∃ variant ∈ variants, variant.name = user.1 ∧
      ∃ field ∈ variant.fields, field.name = user.2 ∧ field.ty.key = slot.ty.key := by
  rw [← mem_usersAt_iff valid.indexed stored, valid.users] at uses
  obtain ⟨placed, present, listed⟩ := uses
  obtain ⟨variant, member, name, fits⟩ := valid.placed _ present
  obtain ⟨field, declared, named, key⟩ := fits.exists_field listed
  rw [keyAt, valid.indexed.getElem? stored, Option.map_some] at key
  exact ⟨variant, member, name, field, declared, named, (Option.some.inj key).symm⟩

/-- **The types in a slot.** Every user of a slot is a field of a variant, and the field's type has
the slot's key. If both types have legible lexemes, these are the same up to glued words; if both
are told by their keys, the field has exactly the type and text of the slot. -/
theorem ofVariants_types {variants : List Variant} {layout : SlotLayout}
    (built : ofVariants variants = .ok layout) :
    ∀ slot ∈ layout.slots, ∀ user ∈ slot.users, ∃ variant ∈ variants, variant.name = user.1 ∧
      ∃ field ∈ variant.fields, field.name = user.2 ∧ field.ty.key = slot.ty.key ∧
        (Legible field.ty.lexemes → Legible slot.ty.lexemes →
          glue field.ty.lexemes = glue slot.ty.lexemes) ∧
        (field.ty.IsTold → slot.ty.IsTold →
          field.ty.lexemes = slot.ty.lexemes ∧ field.ty.text = slot.ty.text) := by
  intro slot stored user uses
  obtain ⟨variant, member, name, field, declared, named, key⟩ :=
    (ofVariants_invariant built).exists_user stored uses
  refine ⟨variant, member, name, field, declared, named, key, ?_, ?_⟩
  · intro legible legible'
    exact (Ty.key_eq_iff legible legible').mp key
  · intro told told'
    have lexemes :=
      Ty.lexemes_eq_of_key_eq told.legible told'.legible told.unglued told'.unglued key
    exact ⟨lexemes, by rw [Ty.text_eq, Ty.text_eq, lexemes]⟩

/-- All types of the variants that share slots are told by their keys. -/
theorem ofVariants_types_sharing :
    ∃ layout, ofVariants sharing = .ok layout ∧
      ∀ slot ∈ layout.slots, ∀ user ∈ slot.users, ∃ variant ∈ sharing, variant.name = user.1 ∧
        ∃ field ∈ variant.fields, field.name = user.2 ∧ field.ty.text = slot.ty.text := by
  obtain ⟨layout, built, slotsTold⟩ : ∃ layout, ofVariants sharing = .ok layout ∧
      ∀ slot ∈ layout.slots, slot.ty.IsTold := ⟨_, rfl, by decide⟩
  have fieldsTold : ∀ variant ∈ sharing, ∀ field ∈ variant.fields, field.ty.IsTold := by decide
  refine ⟨layout, built, fun slot stored user uses => ?_⟩
  obtain ⟨variant, member, name, field, declared, named, -, -, told⟩ :=
    ofVariants_types built slot stored user uses
  exact ⟨variant, member, name, field, declared, named,
    (told (fieldsTold variant member field declared) (slotsTold slot stored)).2⟩

/-- A struct with one field that has a phantom of a type. -/
def phantomStruct (name field : String) (ty : Ty) : StructItem where
  attributes := []
  visibility := .everywhere
  name := name
  generics := .none
  fields := .named [⟨[], .inherited, field,
    .path (.mk false [.mk "PhantomData" (.angle false [.type ty] false)])⟩] false

/-- Phantoms of any value of a trait and of a type whose name starts with a keyword. -/
def phantomStructs : List StructItem :=
  [phantomStruct "A" "x"
      (.object true [.trait false false none (.mk false [.mk "Shape" .none])] false),
    phantomStruct "B" "y" (.named "dynShape")]

/-- Two fields of types with different lexemes and texts can be stored in one slot. -/
theorem ofVariants_glues_words :
    ∃ variants layout slot first second,
      phantomStructs.mapM (Variant.ofStruct · .root) = .ok variants ∧
      ofVariants variants = .ok layout ∧
      layout.slotFor "A" "x" = some slot ∧ layout.slotFor "B" "y" = some slot ∧
      variants.map Variant.fields = [[⟨"x", first⟩], [⟨"y", second⟩]] ∧
      slot.ty.text = first.text ∧ first.text = "PhantomData<dyn Shape>" ∧
      second.text = "PhantomData<dynShape>" ∧ first.lexemes ≠ second.lexemes :=
  ⟨_, _, _, _, _, rfl, rfl, rfl, rfl, rfl, rfl, rfl, rfl, by decide⟩

end SlotLayout

end VariantMerge
