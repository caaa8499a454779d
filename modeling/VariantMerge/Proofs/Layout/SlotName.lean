import Mathlib.Data.List.Basic
import VariantMerge.Layout

/-!
# Names of slots

A slot's name ends in its index. The words of the type before it may themselves end in an
underscore and digits, but the digits after the last underscore are those of the index, so
`Slot.nameFor_index_inj` reads the index back from the name, whatever the types are.
-/

namespace VariantMerge

namespace Slot

theorem nameFor_toList (typeText : String) (index : Nat) :
    (nameFor typeText index).toList =
      (Text.identFragment typeText).toList ++ '_' :: Nat.toDigits 10 index := by
  rw [nameFor, Nat.toString_eq_ofList_toDigits]
  simp

/-- The digits of the index are what follows the last underscore. -/
theorem takeWhile_reverse_nameFor (typeText : String) (index : Nat) :
    (nameFor typeText index).toList.reverse.takeWhile (· != '_') =
      (Nat.toDigits 10 index).reverse := by
  have digits : ∀ c ∈ (Nat.toDigits 10 index).reverse, (c != '_') = true := by
    intro c member
    rw [bne_iff_ne]
    rintro rfl
    exact Nat.underscore_not_in_toDigits (List.mem_reverse.mp member)
  rw [nameFor_toList, List.reverse_append, List.reverse_cons, List.append_assoc,
    List.takeWhile_append_of_pos digits]
  simp

/-- **The index can be read off a slot's name.** -/
theorem nameFor_index_inj {first second : String} {i j : Nat}
    (same : nameFor first i = nameFor second j) : i = j := by
  have reversed : (Nat.toDigits 10 i).reverse = (Nat.toDigits 10 j).reverse := by
    rw [← takeWhile_reverse_nameFor first i, same, takeWhile_reverse_nameFor]
  calc i = Nat.ofDigitChars 10 (Nat.toDigits 10 i) 0 := Nat.ofDigitChars_ten_toDigits.symm
    _ = Nat.ofDigitChars 10 (Nat.toDigits 10 j) 0 := by rw [List.reverse_injective reversed]
    _ = j := Nat.ofDigitChars_ten_toDigits

end Slot

end VariantMerge
