import VariantMerge.Source
import VariantMerge.Proofs.Except
import VariantMerge.Proofs.Layout.SlotName
import VariantMerge.Proofs.Token.Words

/-!
# Raw names in slots

A name is the same name if it is written raw, but the text of a type is cut into words at the number
sign of a raw name, and what is left of its mark is a word `r` of its own
(`Lexeme.WrittenRaw.words_eq`). So a slot is called otherwise as soon as any name of its type is written
raw, wherever the name stands (`Slot.nameFor_writesRaw`).
-/

namespace VariantMerge

/-! ## Names written raw -/

/-- A name, and the same name written raw. -/
def Lexeme.WrittenRaw (plain raw : Lexeme) : Prop :=
  ∃ name, plain = .word name ∧ raw = .word ("r#" ++ name) ∧ Token.isName ("r#" ++ name) = true

/-- Lexemes, and the same ones with some names written raw. -/
def Lexeme.WriteRaw : List Lexeme → List Lexeme → Prop :=
  List.Forall₂ fun plain written => written = plain ∨ plain.WrittenRaw written

/-- The second type is the first one with some names written raw. -/
def Ty.WritesRaw (ty raw : Ty) : Prop :=
  Lexeme.WriteRaw ty.lexemes raw.lexemes

namespace Text

/-- How often words have the letter `r`, in either case. -/
def rCount (cs : List Char) : Nat :=
  (letters (cs.filter isWordChar)).count 'r'

theorem rCount_append (front back : List Char) : rCount (front ++ back) = rCount front + rCount back := by
  rw [rCount, List.filter_append, letters_append, List.count_append, rCount, rCount]

/-- The letter is found in a fragment as often as in the words, since the fragment of a text without
words does not have it. -/
theorem count_identFragment (text : String) :
    (letters (identFragment text).toList).count 'r' = rCount text.toList := by
  cases words : runs isWordChar text.toList with
  | nil =>
      rw [rCount, ← flatten_runs, words, identFragment, words]
      decide
  | cons first rest =>
      rw [letters_identFragment (by simp [words]), rCount]

end Text

namespace Lexeme

variable {plain written : Lexeme}

namespace WrittenRaw

/-- The mark of a raw name adds the word `r`. -/
theorem words_eq (raw : plain.WrittenRaw written) : written.words = ['r'] :: plain.words := by
  obtain ⟨name, rfl, rfl, -⟩ := raw
  have whole : ("r#" ++ name).toList = ['r'] ++ '#' :: name.toList := String.toList_append
  have letter : Text.runs Text.isWordChar ['r'] = [['r']] := rfl
  have sign : Text.isWordChar '#' = false := rfl
  rw [words, chars, whole, Text.runs_append, Text.runs_cons_of_neg sign, letter]
  · rfl
  · exact fun _ _ _ d first => Option.some.inj first ▸ sign

theorem rCount_eq (raw : plain.WrittenRaw written) :
    Text.rCount written.chars = Text.rCount plain.chars + 1 := by
  have mark : Text.letters ['r'] = ['r'] := rfl
  have words := raw.words_eq
  rw [Text.rCount, Text.rCount, ← Text.flatten_runs, ← Text.flatten_runs, ← Lexeme.words,
    ← Lexeme.words, words, List.flatten_cons, Text.letters_append, mark, List.singleton_append,
    List.count_cons_self]

end WrittenRaw

/-- If any name is written raw, the letter `r` is found more often. -/
theorem WriteRaw.eq_or_lt {lexemes others : List Lexeme} (writes : WriteRaw lexemes others) :
    others = lexemes ∨ Text.rCount (spell lexemes) < Text.rCount (spell others) := by
  induction writes with
  | nil => exact .inl rfl
  | @cons plain written rest more here _ ih =>
      have spelled (lexeme : Lexeme) (rest : List Lexeme) :
          Text.rCount (spell (lexeme :: rest)) = Text.rCount lexeme.chars + Text.rCount (spell rest) :=
        Text.rCount_append _ _
      rw [spelled, spelled]
      rcases here with rfl | raw
      · rcases ih with rfl | less
        · exact .inl rfl
        · exact .inr (Nat.add_lt_add_left less _)
      · have one := raw.rCount_eq
        rcases ih with rfl | less
        · omega
        · omega

/-- Names are no operators, so the same operators are written. -/
theorem WriteRaw.partsWords {lexemes others : List Lexeme} (writes : WriteRaw lexemes others)
    (parts : ∀ lexeme ∈ lexemes, lexeme.PartsWords) : ∀ lexeme ∈ others, lexeme.PartsWords := by
  induction writes with
  | nil => exact parts
  | cons here _ ih =>
      obtain ⟨first, later⟩ := List.forall_mem_cons.mp parts
      refine List.forall_mem_cons.mpr ⟨?_, ih later⟩
      rcases here with rfl | ⟨name, -, rfl, -⟩
      · exact first
      · trivial

end Lexeme

namespace Ty.WritesRaw

variable {ty raw : Ty}

/-- The fragment stays the same only if no name has been written raw. -/
theorem identFragment_eq_iff (writes : ty.WritesRaw raw) :
    Text.identFragment raw.text = Text.identFragment ty.text ↔ raw.lexemes = ty.lexemes := by
  constructor
  · intro same
    rcases Lexeme.WriteRaw.eq_or_lt writes with none_ | more
    · exact none_
    · have counts (ty : Ty) : (Text.letters (Text.identFragment ty.text).toList).count 'r' =
          Text.rCount (Lexeme.spell ty.lexemes) := by
        rw [Text.count_identFragment, Text.rCount, ty.filter_text, Text.rCount]
      rw [← counts, ← counts, same] at more
      exact absurd more (Nat.lt_irrefl _)
  · intro same
    rw [raw.text_eq, same, ← ty.text_eq]

end Ty.WritesRaw

namespace Slot

theorem nameFor_eq_iff {first second : String} {index : Nat} :
    nameFor first index = nameFor second index ↔
      Text.identFragment first = Text.identFragment second := by
  rw [← String.toList_inj, nameFor_toList, nameFor_toList, List.append_cancel_right_eq,
    String.toList_inj]

/-- **Raw names in slots.** If any names of a type are written raw, the fragment of its text and the names of
its slots change, whatever the type is and wherever the names stand. If all operators are punctuation, the
words of both texts are those of their lexemes one after the other, and each name that is written raw has
the word `r` in front of its own words. -/
theorem nameFor_writesRaw {ty raw : Ty} (writes : ty.WritesRaw raw) :
    (Text.identFragment raw.text = Text.identFragment ty.text ↔ raw.lexemes = ty.lexemes) ∧
    (∀ index, nameFor raw.text index = nameFor ty.text index ↔ raw.lexemes = ty.lexemes) ∧
    ((∀ lexeme ∈ ty.lexemes, lexeme.PartsWords) →
      Text.runs Text.isWordChar ty.text.toList = ty.lexemes.flatMap Lexeme.words ∧
      Text.runs Text.isWordChar raw.text.toList = raw.lexemes.flatMap Lexeme.words ∧
      List.Forall₂ (fun plain written =>
          written = plain ∨ plain.WrittenRaw written ∧ written.words = ['r'] :: plain.words)
        ty.lexemes raw.lexemes) := by
  have fragment := writes.identFragment_eq_iff
  refine ⟨fragment, fun index => nameFor_eq_iff.trans fragment, fun parts => ?_⟩
  refine ⟨Ty.runs_text parts, Ty.runs_text (writes.partsWords parts), ?_⟩
  exact List.Forall₂.imp (fun _ _ => Or.imp_right fun raw => ⟨raw, raw.words_eq⟩) writes

/-- A vector of elements of a named type. -/
def vectorOf (element : String) : Ty :=
  .path ⟨false, [.mk "Vec" (.angle false [.type (.path ⟨false, [.mk element .none]⟩)] false)]⟩

/-- The elements of a vector, written raw. -/
theorem nameFor_writesRaw_elements :
    (vectorOf "Entity").WritesRaw (vectorOf "r#Entity") ∧ (vectorOf "r#Entity").text = "Vec<r#Entity>" ∧
      nameFor (vectorOf "r#Entity").text 0 ≠ nameFor (vectorOf "Entity").text 0 ∧
      Text.runs Text.isWordChar (vectorOf "r#Entity").text.toList =
        ["Vec".toList, ['r'], "Entity".toList] := by
  have plain : (vectorOf "Entity").lexemes = [.word "Vec", .op "<", .word "Entity", .op ">"] := by
    decide
  have marked : (vectorOf "r#Entity").lexemes =
      [.word "Vec", .op "<", .word "r#Entity", .op ">"] := by decide
  have writes : (vectorOf "Entity").WritesRaw (vectorOf "r#Entity") := by
    rw [Ty.WritesRaw, plain, marked]
    exact .cons (.inl rfl) (.cons (.inl rfl) (.cons (.inr ⟨"Entity", rfl, rfl, by decide⟩)
      (.cons (.inl rfl) .nil)))
  obtain ⟨-, names, words⟩ := nameFor_writesRaw writes
  have parts : ∀ lexeme ∈ (vectorOf "Entity").lexemes, lexeme.PartsWords := by
    rw [plain]
    decide
  have written : (vectorOf "r#Entity").lexemes.flatMap Lexeme.words =
      ["Vec".toList, ['r'], "Entity".toList] := by
    rw [marked]
    decide
  have other : (vectorOf "r#Entity").lexemes ≠ (vectorOf "Entity").lexemes := by
    rw [plain, marked]
    decide
  exact ⟨writes, by decide, (names 0).not.mpr other, (words parts).2.1.trans written⟩

/-- The raw form of a name has a fragment of its own. -/
theorem nameFor_rawName :
    ∃ ty raw : Ty, Source.parse Source.ty "Foo" = .ok ty ∧ Source.parse Source.ty "r#Foo" = .ok raw ∧
      ty.WritesRaw raw ∧
      Text.identFragment ty.text = "foo" ∧ Text.identFragment raw.text = "r_foo" ∧
      nameFor ty.text 0 = "foo_0" ∧ nameFor raw.text 0 = "r_foo_0" := by
  have plain : (Source.parse Source.ty "Foo").toOption.map
      (fun ty => (ty.lexemes, Text.identFragment ty.text, nameFor ty.text 0)) =
        some ([.word "Foo"], "foo", "foo_0") := by decide +kernel
  have marked : (Source.parse Source.ty "r#Foo").toOption.map
      (fun ty => (ty.lexemes, Text.identFragment ty.text, nameFor ty.text 0)) =
        some ([.word "r#Foo"], "r_foo", "r_foo_0") := by decide +kernel
  obtain ⟨ty, read, seen⟩ := Except.exists_of_toOption_map plain
  obtain ⟨raw, readRaw, seenRaw⟩ := Except.exists_of_toOption_map marked
  simp only [Prod.mk.injEq] at seen seenRaw
  obtain ⟨lexemes, fragment, name⟩ := seen
  obtain ⟨lexemesRaw, fragmentRaw, nameRaw⟩ := seenRaw
  refine ⟨ty, raw, read, readRaw, ?_, fragment, fragmentRaw, name, nameRaw⟩
  rw [Ty.WritesRaw, lexemes, lexemesRaw]
  exact .cons (.inr ⟨"Foo", rfl, rfl, by decide⟩) .nil

end Slot

end VariantMerge
