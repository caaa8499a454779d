import VariantMerge.Proofs.Conversion.Meaning
import VariantMerge.Proofs.Except
import VariantMerge.Proofs.Layout.Soundness
import VariantMerge.Proofs.Text.Case
import VariantMerge.Proofs.Text.Identifier
import VariantMerge.Source

/-!
# Names of the fields of a merged struct

A merged struct declares a field for the discriminant, which is called as the settings say, and one
for each slot. The name of a slot can be declared exactly if the first word character in the text of
its type is not a digit (`Slot.nameFor_isFieldName_iff`): a type need not start with a name, and
`[(); 3]` has no other word than `3`. The names of the slots are distinct, and with them all names
are unless the discriminant is called like a slot, which a configuration may say
(`MergedType.fieldNames_nodup_iff`).
-/

namespace VariantMerge

/-! ## Identifiers -/

/-- A name that a field can be declared with: an identifier that is not just an underscore. -/
def IsFieldName (name : String) : Prop :=
  Config.isIdentifier name.toList = true ∧ name ≠ "_"

instance (name : String) : Decidable (IsFieldName name) :=
  inferInstanceAs (Decidable (_ ∧ _))

namespace Text

/-- The case of a word character does not tell whether it is a digit. -/
theorem isDigit_toLower (c : Char) : c.toLower.isDigit = c.isDigit := by
  by_cases upper : c.isUpper = true
  · have letter := isAlpha_of_isUpper upper
    rw [isDigit_eq_false_of_isAlpha letter]
    exact isDigit_eq_false_of_isAlpha (by rwa [Char.isAlpha_toLower_eq_isAlpha])
  · rw [Char.toLower_eq_of_not_isUpper upper]

end Text

namespace Slot

theorem all_nameFor (typeText : String) (index : Nat) :
    ∀ c ∈ (nameFor typeText index).toList, Text.isWordChar c = true := by
  have digits : ∀ c ∈ Nat.toDigits 10 index, Text.isWordChar c = true := by
    intro c listed
    have digit := Nat.isDigit_of_mem_toDigits (by decide) (by decide) listed
    simp [Text.isWordChar, Char.isAlphanum, digit]
  rw [nameFor_toList]
  refine List.forall_mem_append.mpr ⟨Text.all_identFragment typeText, ?_⟩
  exact List.forall_mem_cons.mpr ⟨rfl, digits⟩

/-- The name of a slot starts like the words of its type. -/
theorem exists_nameFor (typeText : String) (index : Nat) :
    ∃ rest, (nameFor typeText index).toList =
      ((typeText.toList.find? Text.isWordChar).map Char.toLower).getD 's' :: rest := by
  obtain ⟨rest, fragment⟩ := List.head?_eq_some_iff.mp (Text.head?_identFragment typeText)
  exact ⟨_, by rw [nameFor_toList, fragment, List.cons_append]⟩

/-- The name of a slot ends in a digit. -/
theorem getLast?_nameFor (typeText : String) (index : Nat) :
    ∃ c ∈ (nameFor typeText index).toList.getLast?, c.isDigit = true := by
  have last := List.getLast?_eq_some_getLast (Nat.toDigits_ne_nil (n := index) (b := 10))
  refine ⟨_, ?_, Nat.isDigit_of_mem_toDigits (by decide) (by decide) (List.mem_of_getLast? last)⟩
  rw [nameFor_toList, List.getLast?_append, List.getLast?_cons, last]
  rfl

/-- **Names of slots that can be declared.** The name of a slot has word characters only, and can be
declared as a field exactly if the first word character of the type's text is not a digit. -/
theorem nameFor_isFieldName_iff (ty : Ty) (index : Nat) :
    (∀ c ∈ (nameFor ty.text index).toList, Text.isWordChar c = true) ∧
      (IsFieldName (nameFor ty.text index) ↔
        ∀ c ∈ ty.text.toList.find? Text.isWordChar, c.isDigit = false) := by
  have all := all_nameFor ty.text index
  have named : nameFor ty.text index ≠ "_" := by
    obtain ⟨c, last, digit⟩ := getLast?_nameFor ty.text index
    intro same
    rw [same] at last
    obtain rfl : c = '_' := (Option.some.inj last).symm
    exact absurd digit (by decide)
  obtain ⟨rest, chars⟩ := exists_nameFor ty.text index
  refine ⟨all, ?_⟩
  rw [IsFieldName, and_iff_left named, chars, Text.isIdentifier_iff (chars ▸ all)]
  cases ty.text.toList.find? Text.isWordChar with
  | none => simp
  | some c => simp [Text.isDigit_toLower]

/-- An array of units has no other word than its length. -/
theorem nameFor_units :
    ∃ ty, Source.parse Source.ty "[(); 3]" = .ok ty ∧
      nameFor ty.text 0 = "3_0" ∧ ¬ IsFieldName (nameFor ty.text 0) := by
  have read : (Source.parseChars Source.ty "[(); 3]".toList).toOption.map
      (nameFor ·.text 0) = some "3_0" := by decide +kernel
  obtain ⟨ty, parsed, name⟩ := Except.exists_of_toOption_map read
  exact ⟨ty, parsed, name, by rw [name]; decide⟩

end Slot

/-! ## All fields -/

namespace MergedType

/-- **Fields of a merged struct.** They are the discriminant and the slots, and the slots have
distinct names. So all names are distinct exactly if no slot is called like the discriminant, and
that is so whenever the name of the discriminant does not end in a digit. -/
theorem fieldNames_nodup_iff {variants : List Variant} {merged : MergedType} (config : Config)
    (built : SlotLayout.ofVariants variants = .ok merged.layout) :
    (merged.mergedStruct config).fields.map Prod.fst =
        config.typeIdField :: merged.layout.slots.map Slot.name ∧
      (merged.layout.slots.map Slot.name).Nodup ∧
      (((merged.mergedStruct config).fields.map Prod.fst).Nodup ↔
        ∀ slot ∈ merged.layout.slots, slot.name ≠ config.typeIdField) ∧
      ((∀ c ∈ config.typeIdField.toList.getLast?, c.isDigit = false) →
        ((merged.mergedStruct config).fields.map Prod.fst).Nodup) := by
  have slots := (SlotLayout.ofVariants_invariant built).indexed.name_nodup
  have all : ((merged.mergedStruct config).fields.map Prod.fst).Nodup ↔
      ∀ slot ∈ merged.layout.slots, slot.name ≠ config.typeIdField := by
    rw [mergedStruct_names, List.nodup_cons, and_iff_left slots]
    simp
  refine ⟨mergedStruct_names merged config, slots, all, fun letter => all.mpr ?_⟩
  intro slot _ same
  obtain ⟨c, last, digit⟩ := Slot.getLast?_nameFor slot.ty.text slot.index
  rw [← Slot.name, same] at last
  exact absurd digit (by simp [letter c last])

/-- One variant with one field. -/
def square : Variant :=
  ⟨"Square", .root, .named, [⟨"side", .named "f32"⟩]⟩

/-- The merged type of that variant alone, with this layout. -/
def ofSquare (layout : SlotLayout) : MergedType :=
  ⟨"Shape", "ShapeTypeId", "IShape", .root, "pub", [square], layout, ⟨[]⟩⟩

theorem fieldNames_nodup_iff_square :
    ∃ layout, SlotLayout.ofVariants [square] = .ok layout ∧
      ((MergedType.mergedStruct (ofSquare layout) .default).fields.map Prod.fst).Nodup := by
  obtain ⟨layout, built⟩ := SlotLayout.ofVariants_isOk_iff.mpr
    (show ([square].map Variant.name).Nodup by decide)
  have last : Config.default.typeIdField.toList.getLast? = some 'd' := by decide +kernel
  have letter : ∀ c ∈ Config.default.typeIdField.toList.getLast?, c.isDigit = false := by
    rw [last]
    rintro c ⟨rfl⟩
    rfl
  have laid : SlotLayout.ofVariants [square] = .ok (ofSquare layout).layout := built
  exact ⟨layout, built, (fieldNames_nodup_iff .default laid).2.2.2 letter⟩

/-- Settings that call the discriminant like the first slot of that type are accepted. -/
theorem fieldNames_clash :
    ∃ config layout, Config.check config = .ok config ∧
      SlotLayout.ofVariants [square] = .ok layout ∧
      (MergedType.mergedStruct (ofSquare layout) config).fields.map Prod.fst =
        ["f32_0", "f32_0"] := by
  have read : (SlotLayout.ofVariants [square]).toOption.map (·.slots.map Slot.name) =
      some ["f32_0"] := by decide +kernel
  obtain ⟨layout, built, names⟩ := Except.exists_of_toOption_map read
  refine ⟨{ Config.default with typeIdField := "f32_0" }, layout, by decide +kernel, built, ?_⟩
  rw [mergedStruct_names]
  exact congrArg _ names

end MergedType

end VariantMerge
