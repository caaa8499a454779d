import VariantMerge.Text.Case
import VariantMerge.Text.Letter
import VariantMerge.Proofs.Text.Lines

/-!
# Blank characters

There are few blank characters, so what holds of all of them is told from their code points
(`Text.mem_blankCodes`): names and words have none of them. Trimming leaves a part of a text that has none
around it (`Text.isTrimmed_trim`), and leaves such a text alone (`Text.IsTrimmed.trim_eq`).
-/

namespace VariantMerge

namespace Text

/-! ## Code points -/

/-- The code points of blanks. -/
def blankCodes : List Nat :=
  [9, 10, 11, 12, 13, 0x20, 0x85, 0xA0, 0x1680, 0x2000, 0x2001, 0x2002, 0x2003, 0x2004, 0x2005, 0x2006,
    0x2007, 0x2008, 0x2009, 0x200A, 0x2028, 0x2029, 0x202F, 0x205F, 0x3000]

theorem mem_blankCodes {c : Char} (blank : isBlank c = true) : c.toNat ∈ blankCodes := by
  have code : c.val.toNat = c.toNat := rfl
  simp only [isBlank, Bool.or_eq_true, Bool.and_eq_true, decide_eq_true_eq, beq_iff_eq,
    UInt32.le_iff_toNat_le, ← UInt32.toNat_inj, code, UInt32.reduceToNat] at blank
  simp only [blankCodes, List.mem_cons, List.not_mem_nil, or_false]
  omega

/-- What none of the code points has, no blank has. -/
theorem eq_false_of_isBlank {p : Char → Bool} (none_ : ∀ code ∈ blankCodes, p (Char.ofNat code) = false)
    {c : Char} (blank : isBlank c = true) : p c = false := by
  rw [← Char.ofNat_toNat c]
  exact none_ _ (mem_blankCodes blank)

/-- No name goes on with a blank. -/
theorem isIdentContinue_of_isBlank {c : Char} (blank : isBlank c = true) : isIdentContinue c = false :=
  eq_false_of_isBlank (by decide +kernel) blank

/-- No word of a type's text has a blank. -/
theorem isWordChar_of_isBlank {c : Char} (blank : isBlank c = true) : isWordChar c = false :=
  eq_false_of_isBlank (by decide +kernel) blank

/-! ## Trimmed texts -/

/-- No blanks are around the characters. -/
structure IsTrimmed (cs : List Char) : Prop where
  first : ∀ c ∈ cs.head?, isBlank c = false
  last : ∀ c ∈ cs.getLast?, isBlank c = false

theorem IsTrimmed.trim_eq {cs : List Char} (trimmed : IsTrimmed cs) : trim cs = cs := by
  have start : trimStart cs = cs := by
    cases cs with
    | nil => rfl
    | cons c rest => exact List.dropWhile_cons_of_neg (by simp [trimmed.first c rfl])
  rw [trim, start]
  obtain rfl | ⟨front, c, rfl⟩ := List.eq_nil_or_concat' cs
  · rfl
  · have last : isBlank c = false := trimmed.last c List.getLast?_concat
    exact List.rdropWhile_concat_neg isBlank front c (by simp [last])

/-- What is left by trimming is a part of the characters. -/
theorem trim_infix (cs : List Char) : trim cs <:+: cs :=
  (List.rdropWhile_prefix isBlank _).isInfix.trans (List.dropWhile_suffix isBlank).isInfix

theorem isTrimmed_trim (cs : List Char) : IsTrimmed (trim cs) := by
  refine ⟨fun c first => ?_, fun c last => getLast?_trimEnd last⟩
  obtain ⟨blanks, whole⟩ := List.rdropWhile_prefix isBlank (trimStart cs)
  change trim cs ++ blanks = trimStart cs at whole
  have start : (trimStart cs).head? = some c := by
    rw [← whole, List.head?_append, first]
    rfl
  have visible := List.head?_dropWhile_not isBlank cs
  rw [trimStart] at start
  rw [start] at visible
  simpa using visible

end Text

end VariantMerge
