import VariantMerge.Proofs.Text.Blank
import VariantMerge.Proofs.Text.Case
import VariantMerge.Proofs.Token.Lexeme
import VariantMerge.Proofs.Token.Spelling

/-!
# The words of a type

An identifier fragment is made of the words of a type's text, which are looked for in the characters. If
all operators are punctuation, each word is found inside one lexeme (`Ty.runs_text`), since what stands
between two words is an operator, a delimiter or a blank. Whatever the operators are, the characters of
words are those of the lexemes (`Ty.filter_text`), and so are the letters of the fragment
(`Text.letters_identFragment`).
-/

namespace VariantMerge

namespace Text

/-! ## Runs -/

/-- The runs hold all characters that are kept. -/
theorem flatten_runs (keep : Char → Bool) (cs : List Char) :
    (runs keep cs).flatten = cs.filter keep := by
  induction cs with
  | nil => rfl
  | cons c rest ih =>
      cases kept : keep c with
      | false => rw [runs_cons_of_neg kept, ih, List.filter_cons_of_neg (by simp [kept])]
      | true =>
          rw [List.filter_cons_of_pos kept, ← ih, runs, if_pos kept]
          split
          next run more _ all =>
            rw [all]
            rfl
          next => rfl

theorem runs_eq_nil_iff {keep : Char → Bool} {cs : List Char} :
    runs keep cs = [] ↔ ∀ c ∈ cs, keep c = false := by
  obtain ⟨none_, absent⟩ | ⟨c, run, more, some_, found⟩ := runs_cases keep cs
  · simpa [none_] using absent
  · have kept := List.find?_some found
    have listed := List.mem_of_find?_eq_some found
    simp only [some_, reduceCtorEq, false_iff, not_forall]
    exact ⟨c, listed, by simp [kept]⟩

/-- No run goes on from one part to the other one. -/
theorem runs_append {keep : Char → Bool} {front back : List Char}
    (apart : ∀ c ∈ front.getLast?, keep c = true → ∀ d ∈ back.head?, keep d = false) :
    runs keep (front ++ back) = runs keep front ++ runs keep back := by
  induction front with
  | nil => rfl
  | cons c rest ih =>
      cases rest with
      | nil =>
          cases kept : keep c with
          | false =>
              rw [List.singleton_append, runs_cons_of_neg kept, runs_cons_of_neg kept]
              rfl
          | true =>
              have ends : back.head?.any keep = false := by
                rw [Option.any_eq_false]
                intro d first
                simp [apart c rfl kept d first]
              simp [runs, kept, ends]
      | cons d rest =>
          have behind := ih (fun c last => apart c (by rwa [List.getLast?_cons_cons]))
          cases kept : keep c with
          | false =>
              rw [List.cons_append, runs_cons_of_neg kept, runs_cons_of_neg kept, behind]
          | true =>
              rw [List.cons_append, runs, runs, behind, if_pos kept, if_pos kept]
              cases next : keep d with
              | false => simp [next]
              | true =>
                  obtain ⟨run, more, here⟩ := exists_runs_cons next rest
                  simp [next, here]

/-! ## Letters of fragments -/

theorem letters_append (front back : List Char) : letters (front ++ back) = letters front ++ letters back := by
  simp [letters]

/-- Underscores between words are no letters. -/
theorem letters_intercalate (words : List (List Char)) :
    letters (List.intercalate ['_'] words) = letters words.flatten := by
  induction words with
  | nil => rfl
  | cons first rest ih =>
      cases rest with
      | nil => simp
      | cons second rest =>
          have sign : letters ['_'] = [] := rfl
          rw [List.intercalate_cons_cons, letters_append, letters_append, sign, List.append_nil, ih,
            List.flatten_cons (l := first), letters_append]

theorem letters_flatten (words : List (List Char)) :
    letters words.flatten = (words.map letters).flatten := by
  rw [letters, List.filter_flatten, List.map_flatten, List.map_map]
  rfl

/-- The letters of a fragment are those of the words. -/
theorem letters_identFragment {text : String} (some_ : runs isWordChar text.toList ≠ []) :
    letters (identFragment text).toList = letters (text.toList.filter isWordChar) := by
  obtain ⟨first, rest, words⟩ := List.exists_cons_of_ne_nil some_
  have snake : letters ∘ snakeFrom none = letters := funext (letters_snakeFrom none)
  rw [identFragment_of_runs words, letters_intercalate, letters_flatten, List.map_map, snake,
    ← letters_flatten, ← words, flatten_runs]

/-- Blanks do not matter for words. -/
theorem filter_inked (cs : List Char) : (inked cs).filter isWordChar = cs.filter isWordChar := by
  rw [inked, List.filter_filter]
  refine List.filter_congr fun c _ => ?_
  rw [Bool.and_eq_left_iff_imp, Bool.not_eq_true']
  intro word
  by_contra blank
  rw [Bool.not_eq_false] at blank
  rw [isWordChar_of_isBlank blank] at word
  cases word

end Text

/-- The word characters of a type's text are those of its lexemes. -/
theorem Ty.filter_text (ty : Ty) :
    ty.text.toList.filter Text.isWordChar = (Lexeme.spell ty.lexemes).filter Text.isWordChar := by
  rw [← Text.filter_inked, ty.text_eq, Lexeme.inked_writeEach, Text.filter_inked]

namespace Lexeme

/-! ## Words of lexemes -/

/-- The words in the characters of a lexeme. -/
def words (lexeme : Lexeme) : List (List Char) :=
  Text.runs Text.isWordChar lexeme.chars

/-- An operator is not empty and has no word characters, so it parts the words around it. -/
def PartsWords : Lexeme → Prop
  | op text => text ≠ "" ∧ ∀ c ∈ text.toList, Text.isWordChar c = false
  | _ => True

instance : DecidablePred PartsWords
  | op text =>
    decidable_of_iff (text ≠ "" ∧ text.toList.all (!Text.isWordChar ·))
      (and_congr_right' (by simp))
  | word _ | lifetime _ | opened _ | closed _ => inferInstanceAs (Decidable True)

/-- Words and lifetimes, which hold the words of a text. -/
def holdsWords : Lexeme → Bool
  | word _ | lifetime _ => true
  | _ => false

variable {lexeme : Lexeme}

theorem partsWords_after (holds : lexeme.holdsWords = true) : lexeme.after.partsWords = true := by
  cases lexeme with
  | word _ | lifetime _ => rfl
  | _ => cases holds

/-- Operators and delimiters have no word characters. -/
theorem all_chars (parts : lexeme.PartsWords) (other : lexeme.holdsWords = false) :
    lexeme.chars ≠ [] ∧ ∀ c ∈ lexeme.chars, Text.isWordChar c = false := by
  cases lexeme with
  | word _ | lifetime _ => cases other
  | op text => exact ⟨fun empty => parts.1 (String.toList_eq_nil_iff.mp empty), parts.2⟩
  | opened delimiter | closed delimiter =>
      refine ⟨List.cons_ne_nil _ _, List.forall_mem_singleton.mpr ?_⟩
      cases delimiter <;> rfl

/-- A lexeme is written with blanks around its characters, and with one before a word that has to be parted
from what is there. -/
theorem exists_write (before : Before) (lexeme : Lexeme) : ∃ front back,
    (lexeme.write before).toList =
        List.replicate front ' ' ++ (lexeme.chars ++ List.replicate back ' ') ∧
      (before.partsWords = true → lexeme.holdsWords = true → 0 < front) := by
  have blank (when : Bool) : (if when then [' '] else []) = List.replicate when.toNat ' ' := by
    cases when <;> rfl
  cases lexeme with
  | word text =>
      refine ⟨before.partsWords.toNat, 0, ?_, fun parts _ => by simp [parts]⟩
      rw [← blank, List.replicate_zero, List.append_nil]
      exact Token.write_word before text
  | lifetime name =>
      refine ⟨before.partsWords.toNat, 0, ?_, fun parts _ => by simp [parts]⟩
      rw [← blank, List.replicate_zero, List.append_nil]
      exact Token.write_lifetime before name
  | op text =>
      refine ⟨(Token.isParted before text).toNat, (Token.isSpaced text).toNat, ?_,
        fun _ holds => by cases holds⟩
      rw [← blank, ← blank, ← List.append_assoc]
      exact Token.write_op before text
  | opened delimiter =>
      refine ⟨(delimiter == .brace && before.partsBraces).toNat, 0, ?_, fun _ holds => by cases holds⟩
      rw [← blank, write, String.toList_append, List.replicate_zero, List.append_nil]
      cases delimiter == .brace && before.partsBraces <;> simp [chars]
  | closed delimiter =>
      refine ⟨0, 0, ?_, fun _ holds => by cases holds⟩
      simp [write, chars]

/-- The blanks around a lexeme are no part of its words. -/
theorem runs_write (before : Before) (lexeme : Lexeme) :
    Text.runs Text.isWordChar (lexeme.write before).toList = lexeme.words := by
  obtain ⟨front, back, written, -⟩ := exists_write before lexeme
  have blanks (count : Nat) : ∀ c ∈ List.replicate count ' ', Text.isWordChar c = false := by
    intro c listed
    rw [List.eq_of_mem_replicate listed]
    rfl
  have none_ (count : Nat) : Text.runs Text.isWordChar (List.replicate count ' ') = [] :=
    Text.runs_eq_nil_iff.mpr (blanks count)
  rw [written, Text.runs_append, Text.runs_append, none_, none_, List.nil_append, List.append_nil,
    words]
  · exact fun _ _ _ d first => blanks back d (List.mem_of_mem_head? first)
  · intro c last word
    rw [blanks front c (List.mem_of_getLast? last)] at word
    cases word

/-- What is written behind a word does not go on with it. -/
theorem head?_writeEach {before : Before} (behind : before.partsWords = true) {lexemes : List Lexeme}
    (parts : ∀ lexeme ∈ lexemes, lexeme.PartsWords) :
    ∀ c ∈ (writeEach before lexemes).toList.head?, Text.isWordChar c = false := by
  cases lexemes with
  | nil => exact fun _ first => absurd first (Option.not_mem_none _)
  | cons lexeme rest =>
      obtain ⟨front, back, written, parted⟩ := exists_write before lexeme
      rw [writeEach, String.toList_append, written]
      intro c first
      cases front with
      | succ count =>
          obtain rfl : ' ' = c := Option.some.inj first
          rfl
      | zero =>
          cases holds : lexeme.holdsWords with
          | true => exact absurd (parted behind holds) (Nat.lt_irrefl 0)
          | false =>
              obtain ⟨nonempty, none_⟩ := all_chars (parts lexeme List.mem_cons_self) holds
              obtain ⟨d, more, chars⟩ := List.exists_cons_of_ne_nil nonempty
              rw [chars] at first none_
              obtain rfl : d = c := Option.some.inj first
              exact none_ d List.mem_cons_self

/-- Words of lexemes that are written one after the other are the words of each. -/
theorem runs_writeEach (before : Before) {lexemes : List Lexeme}
    (parts : ∀ lexeme ∈ lexemes, lexeme.PartsWords) :
    Text.runs Text.isWordChar (writeEach before lexemes).toList = lexemes.flatMap words := by
  induction lexemes generalizing before with
  | nil => rfl
  | cons lexeme rest ih =>
      obtain ⟨here, later⟩ := List.forall_mem_cons.mp parts
      rw [writeEach, String.toList_append, Text.runs_append, runs_write, ih lexeme.after later,
        List.flatMap_cons]
      -- Only a word or a lifetime ends in a word character, and a blank is due behind these.
      intro c last word
      cases holds : lexeme.holdsWords with
      | true => exact head?_writeEach (partsWords_after holds) later
      | false =>
          have none_ : lexeme.words = [] := Text.runs_eq_nil_iff.mpr (all_chars here holds).2
          rw [← runs_write before, Text.runs_eq_nil_iff] at none_
          rw [none_ c (List.mem_of_getLast? last)] at word
          cases word

end Lexeme

/-- **The words of a type's text are those of its lexemes**, one after the other, if operators are
punctuation. -/
theorem Ty.runs_text {ty : Ty} (parts : ∀ lexeme ∈ ty.lexemes, lexeme.PartsWords) :
    Text.runs Text.isWordChar ty.text.toList = ty.lexemes.flatMap Lexeme.words := by
  rw [ty.text_eq, Lexeme.runs_writeEach .start parts]

end VariantMerge
