import VariantMerge.Config
import VariantMerge.Proofs.Token.Readers
import VariantMerge.Text.Case

/-!
# Fragments of identifiers

A fragment has word characters only, of which there is one at least, and does not start with a digit.
That is what a configuration checks of its names (`isFragment_iff`).
-/

namespace VariantMerge

namespace Text

theorem isDigit_eq_false_of_isAlpha {c : Char} (letter : c.isAlpha = true) : c.isDigit = false :=
  Lexer.isDigit_eq_false (by simp [isIdentStart, letter])

/-- Word characters are an identifier if the first one is not a digit. -/
theorem isIdentifier_iff {c : Char} {rest : List Char}
    (all : ∀ d ∈ c :: rest, isWordChar d = true) :
    Config.isIdentifier (c :: rest) = true ↔ c.isDigit = false := by
  obtain ⟨first, later⟩ := List.forall_mem_cons.mp all
  have tail : rest.all (fun d => d.isAlphanum || d == '_') = true := List.all_eq_true.mpr later
  rw [Config.isIdentifier, tail, Bool.and_true]
  constructor
  · intro starts
    obtain letter | sign := Bool.or_eq_true_iff.mp starts
    · exact isDigit_eq_false_of_isAlpha letter
    · rw [beq_iff_eq.mp sign]
      rfl
  · intro letter
    simpa [isWordChar, Char.isAlphanum, letter] using first

end Text

/-- ASCII letters, digits and underscores that do not start with a digit. -/
structure IsFragment (name : String) : Prop where
  nonempty : name ≠ ""
  chars : ∀ c ∈ name.toList, Text.isWordChar c = true
  first : ∀ c ∈ name.toList.head?, c.isDigit = false

/-- **What is checked of a name.** -/
theorem isFragment_iff {name : String} :
    IsFragment name ↔ Config.isIdentifier name.toList = true := by
  cases chars : name.toList with
  | nil =>
      have empty : name = "" := String.toList_eq_nil_iff.mp chars
      exact ⟨fun fragment => absurd empty fragment.nonempty, nofun⟩
  | cons c rest =>
      constructor
      · intro fragment
        apply (Text.isIdentifier_iff (chars ▸ fragment.chars)).mpr
        exact fragment.first c (by rw [chars]; rfl)
      · intro identifier
        have both := identifier
        rw [Config.isIdentifier, Bool.and_eq_true] at both
        obtain ⟨starts, rest_⟩ := both
        have first : Text.isWordChar c = true := by
          rcases Bool.or_eq_true_iff.mp starts with letter | sign
          · simp [Text.isWordChar, Char.isAlphanum, letter]
          · simp [Text.isWordChar, sign]
        have all : ∀ d ∈ c :: rest, Text.isWordChar d = true :=
          List.forall_mem_cons.mpr ⟨first, List.all_eq_true.mp rest_⟩
        refine ⟨?_, chars ▸ all, ?_⟩
        · rintro rfl
          cases chars
        · rw [chars]
          rintro d ⟨rfl⟩
          exact (Text.isIdentifier_iff all).mp identifier

instance (name : String) : Decidable (IsFragment name) :=
  decidable_of_iff _ isFragment_iff.symm

end VariantMerge
