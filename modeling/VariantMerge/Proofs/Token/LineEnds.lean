import Mathlib.Data.List.Basic
import Mathlib.Tactic.IntervalCases
import VariantMerge.Token.Lexer

/-!
# Literals and the ends of lines

Whatever follows a token, a line end does not change where the token ends. So a reader that has read
something reads the same if a line end and more come after the characters (`Keeps`); most readers
also find nothing where they found nothing before (`Agrees`). For literals that means that one which
is closed within its line is read whatever comes after the line (`Literal.literal_keeps`).
-/

namespace VariantMerge

/-- Nothing, or what starts with the end of a line. -/
inductive EndsLine : List Char → Prop
  | nothing : EndsLine []
  | feed (rest : List Char) : EndsLine ('\n' :: rest)
  | carriageReturn (rest : List Char) : EndsLine ('\r' :: '\n' :: rest)

namespace EndsLine

variable {more : List Char}

/-- What is dropped up to the end of a line does not depend on the lines behind it. -/
theorem dropWhile_append (ends : EndsLine more) {drops : Char → Bool} (feed : drops '\n' = false)
    (carriageReturn : drops '\r' = false) (cs : List Char) :
    (cs ++ more).dropWhile drops = cs.dropWhile drops ++ more := by
  induction cs with
  | nil => cases ends <;> simp [*]
  | cons c rest ih =>
      rw [List.cons_append, List.dropWhile_cons, List.dropWhile_cons]
      split
      · exact ih
      · rfl

/-- What is taken up to the end of a line does not depend on the lines behind it. -/
theorem takeWhile_append (ends : EndsLine more) {takes : Char → Bool} (feed : takes '\n' = false)
    (carriageReturn : takes '\r' = false) (cs : List Char) :
    (cs ++ more).takeWhile takes = cs.takeWhile takes := by
  induction cs with
  | nil => cases ends <;> simp [*]
  | cons c rest ih =>
      rw [List.cons_append, List.takeWhile_cons, List.takeWhile_cons, ih]

/-- Whether a line begins with a character does not depend on the lines behind it. -/
theorem head?_append (ends : EndsLine more) {c : Char} (feed : c ≠ '\n') (carriageReturn : c ≠ '\r')
    (cs : List Char) : ((cs ++ more).head? == some c) = (cs.head? == some c) := by
  cases cs with
  | nil => cases ends <;> simp [Ne.symm feed, Ne.symm carriageReturn]
  | cons => rfl

/-- A beginning that holds no line end stands in the characters already. -/
theorem isPrefixOf_append (ends : EndsLine more) {beginning : List Char} (feed : '\n' ∉ beginning)
    (carriageReturn : '\r' ∉ beginning) (cs : List Char) :
    beginning.isPrefixOf (cs ++ more) = beginning.isPrefixOf cs := by
  induction beginning generalizing cs with
  | nil => simp
  | cons first rest ih =>
      obtain ⟨noFeed, feed⟩ := not_or.mp (List.mem_cons.not.mp feed)
      obtain ⟨noReturn, carriageReturn⟩ := not_or.mp (List.mem_cons.not.mp carriageReturn)
      cases cs with
      | nil => cases ends <;> simp [List.isPrefixOf, Ne.symm noFeed, Ne.symm noReturn]
      | cons c cs => rw [List.cons_append, List.isPrefixOf, List.isPrefixOf, ih feed carriageReturn]

end EndsLine

/-- The reader reads the same, or nothing as before, if a line end comes after the characters. -/
def Agrees (read : List Char → Option (List Char)) : Prop :=
  ∀ cs more, EndsLine more → read (cs ++ more) = (read cs).map (· ++ more)

/-- What was read is read as well if a line end comes after the characters. -/
def Keeps (read : List Char → Option (List Char)) : Prop :=
  ∀ cs more after, EndsLine more → read cs = some after → read (cs ++ more) = some (after ++ more)

/-- Two readers one after the other agree if each does. -/
theorem bind_agrees {first second : List Char → Option (List Char)} (early : Agrees first)
    (late : Agrees second) : Agrees fun cs => (first cs).bind second := by
  intro cs more ends
  change (first (cs ++ more)).bind second = ((first cs).bind second).map (· ++ more)
  rw [early cs more ends]
  cases first cs with
  | none => rfl
  | some between => exact late between more ends

/-- The characters that were read do not depend on those that follow. -/
theorem Lexer.readPart_append (cs after more : List Char) :
    Lexer.readPart (cs ++ more) (after ++ more) = Lexer.readPart cs after := by
  rw [Lexer.readPart, Lexer.readPart, List.length_append, List.length_append,
    Nat.add_sub_add_right, List.take_append_of_le_length (Nat.sub_le _ _)]

namespace Literal

/-! ## Words -/

/-- A word ends in its line. -/
theorem word_agrees : Agrees word := by
  intro cs more ends
  cases cs with
  | nil => cases ends <;> rfl
  | cons c rest =>
      rw [List.cons_append, word, word]
      split
      · exact congrArg some (ends.dropWhile_append (by decide) (by decide) rest)
      · rfl

/-- A word is raw if it starts like one. -/
theorem rawableWord_eq (cs : List Char) : rawableWord cs =
    if ['r', '#'].isPrefixOf cs then
      (word (cs.drop 2)).bind fun after =>
        if unrawable.contains (String.ofList (Lexer.readPart (cs.drop 2) after)) then none
        else some after
    else word cs := by
  fun_cases rawableWord cs with
  | case1 rest after found unraw => simpa [List.isPrefixOf, found, Lexer.readPart] using unraw
  | case2 rest after found unraw => simpa [List.isPrefixOf, found, Lexer.readPart] using unraw
  | case3 rest found => simp [List.isPrefixOf, found]
  | case4 cs other =>
      rw [if_neg]
      intro raw
      obtain ⟨rest, rfl⟩ := List.isPrefixOf_iff_prefix.mp raw
      exact other rest rfl

/-- A word is a plain one, or raw with a plain one behind its mark. -/
theorem rawableWord_cases {cs after : List Char} (found : rawableWord cs = some after) :
    (∃ rest, cs = 'r' :: '#' :: rest ∧ word rest = some after) ∨ word cs = some after := by
  rw [rawableWord_eq] at found
  split at found
  next raw =>
    obtain ⟨rest, rfl⟩ := List.isPrefixOf_iff_prefix.mp raw
    obtain ⟨behind, inside, kept⟩ := Option.bind_eq_some_iff.mp found
    split at kept
    next => cases kept
    next =>
      cases kept
      exact .inl ⟨rest, rfl, inside⟩
  next => exact .inr found

/-- So does a word that may be raw. -/
theorem rawableWord_agrees : Agrees rawableWord := by
  intro cs more ends
  rw [rawableWord_eq, rawableWord_eq, ends.isPrefixOf_append (by decide) (by decide)]
  split
  next raw =>
    obtain ⟨rest, rfl⟩ := List.isPrefixOf_iff_prefix.mp raw
    simp only [List.cons_append, List.nil_append, List.drop_succ_cons, List.drop_zero]
    rw [word_agrees rest more ends]
    cases word rest with
    | none => rfl
    | some after =>
        simp only [Option.map_some, Option.bind_some, Lexer.readPart_append]
        split <;> rfl
  next => exact word_agrees cs more ends

/-- The suffix of a number ends in its line. -/
theorem skipSuffix_append {more : List Char} (ends : EndsLine more) (cs : List Char) :
    skipSuffix (cs ++ more) = skipSuffix cs ++ more := by
  rw [skipSuffix, skipSuffix, word_agrees cs more ends]
  cases word cs <;> rfl

/-! ## Numbers -/

/-- Digits end in their line. -/
theorem digits_agrees (base : Nat) (found : Bool) : Agrees (digits base found) := by
  intro cs more ends
  induction cs generalizing found with
  | nil => cases ends <;> cases found <;> rfl
  | cons c rest ih =>
      simp only [List.cons_append, digits, ih]
      split
      · split <;> rfl
      · split
        · split
          · rfl
          · split <;> rfl
        · split
          · split <;> rfl
          · split <;> rfl

/-- Where a number ends is decided in its line. -/
theorem numberEnd_agrees : Agrees numberEnd := by
  intro cs more ends
  rw [numberEnd, numberEnd, skipSuffix_append ends]
  cases skipSuffix cs with
  | nil => cases ends <;> rfl
  | cons c rest =>
      simp only [List.cons_append]
      split <;> rfl

/-- The base of an integer is told from its beginning. -/
theorem integer_eq (cs : List Char) : integer cs =
    (if ['0', 'x'].isPrefixOf cs then digits 16 false (cs.drop 2)
      else if ['0', 'o'].isPrefixOf cs then digits 8 false (cs.drop 2)
      else if ['0', 'b'].isPrefixOf cs then digits 2 false (cs.drop 2)
      else digits 10 false cs).bind numberEnd := by
  unfold integer
  split
  · rfl
  · rfl
  · rfl
  next hexadecimal octal binary =>
    have apart {mark : Char} (other : ∀ rest, cs = '0' :: mark :: rest → False) :
        ¬ ['0', mark].isPrefixOf cs = true := by
      intro starts
      obtain ⟨rest, rfl⟩ := List.isPrefixOf_iff_prefix.mp starts
      exact other rest rfl
    rw [if_neg (apart hexadecimal), if_neg (apart octal), if_neg (apart binary)]

/-- An integer ends in its line. -/
theorem integer_agrees : Agrees integer := by
  intro cs more ends
  have based {mark : Char} (base : Nat) (starts : ['0', mark].isPrefixOf cs = true) :
      (digits base false ((cs ++ more).drop 2)).bind numberEnd =
        ((digits base false (cs.drop 2)).bind numberEnd).map (· ++ more) := by
    obtain ⟨rest, rfl⟩ := List.isPrefixOf_iff_prefix.mp starts
    exact bind_agrees (digits_agrees base false) numberEnd_agrees rest more ends
  rw [integer_eq, integer_eq, ends.isPrefixOf_append (by decide) (by decide),
    ends.isPrefixOf_append (by decide) (by decide), ends.isPrefixOf_append (by decide) (by decide)]
  split
  next starts => exact based 16 starts
  next =>
    split
    next starts => exact based 8 starts
    next =>
      split
      next starts => exact based 2 starts
      next => exact bind_agrees (digits_agrees 10 false) numberEnd_agrees cs more ends

/-- The digits of an exponent end in their line. -/
theorem exponent_agrees (signed valued : Bool) : Agrees (exponent signed valued) := by
  intro cs more ends
  induction cs generalizing signed valued with
  | nil => cases ends <;> cases signed <;> cases valued <;> rfl
  | cons c rest ih =>
      simp only [List.cons_append, exponent, ih]
      split
      · rfl
      · split
        · rfl
        · split
          · split <;> rfl
          · split <;> rfl

/-- So does an exponent that may be missing. -/
theorem exponent?_agrees : Agrees exponent? := by
  intro cs more ends
  cases cs with
  | nil => cases ends <;> rfl
  | cons c rest =>
      simp only [List.cons_append, exponent?]
      split
      · exact exponent_agrees false false rest more ends
      · rfl

/-- What comes after the digits in front of a point or an exponent. -/
theorem afterDigits_agrees : Agrees fun cs =>
    match cs with
    | '.' :: rest =>
      if rest.head?.any fun d => d == '.' || Text.isIdentStart d then none
      else
        let fraction := rest.dropWhile isDigitOrUnderscore
        numberEnd ((exponent? fraction).getD fraction)
    | rest => (exponent? rest).bind numberEnd := by
  intro cs more ends
  cases cs with
  | nil => cases ends <;> rfl
  | cons c rest =>
      by_cases point : c = '.'
      · subst point
        have next : (rest ++ more).head?.any (fun d => d == '.' || Text.isIdentStart d) =
            rest.head?.any fun d => d == '.' || Text.isIdentStart d := by
          cases rest with
          | nil => cases ends <;> rfl
          | cons => rfl
        have digits : (rest ++ more).dropWhile isDigitOrUnderscore =
            rest.dropWhile isDigitOrUnderscore ++ more :=
          ends.dropWhile_append (by decide) (by decide) rest
        simp only [List.cons_append, next, digits, exponent?_agrees _ more ends]
        split
        · rfl
        · rw [← numberEnd_agrees _ more ends]
          cases exponent? (rest.dropWhile isDigitOrUnderscore) <;> rfl
      · simp only [List.cons_append]
        split
        next same => exact absurd (List.cons.inj same).1 point
        next =>
          split
          next same => exact absurd (List.cons.inj same).1 point
          next => exact bind_agrees exponent?_agrees numberEnd_agrees (c :: rest) more ends

/-- A number with a fraction ends in its line. -/
theorem float_agrees : Agrees float := by
  intro cs more ends
  cases cs with
  | nil => cases ends <;> rfl
  | cons c rest =>
      have digits : (c :: (rest ++ more)).dropWhile isDigitOrUnderscore =
          (c :: rest).dropWhile isDigitOrUnderscore ++ more :=
        ends.dropWhile_append (by decide) (by decide) (c :: rest)
      simp only [List.cons_append, float, digits]
      split
      · exact afterDigits_agrees _ more ends
      · rfl

/-! ## Quoted literals -/

/-- A string that is closed in its line is the same with other lines behind it. -/
theorem stringBody_keeps (content : Content) (state : QuoteState) :
    Keeps (stringBody content state) := by
  intro cs more after ends found
  induction cs generalizing state with
  | nil => cases found
  | cons c rest ih =>
      rw [List.cons_append, stringBody]
      rw [stringBody] at found
      split at found
      · exact ih _ found
      · cases found
        rfl
      · cases found

/-- So is a character. -/
theorem singleBody_keeps (content : Content) (state : QuoteState) :
    Keeps (singleBody content state) := by
  intro cs more after ends found
  induction cs generalizing state with
  | nil => cases found
  | cons c rest ih =>
      rw [singleBody.eq_def] at found ⊢
      cases step : stepSingle content state c with
      | more next =>
          simp only [step] at found
          simp only [List.cons_append, step]
          exact ih next found
      | complete =>
          simp only [step] at found
          split at found
          next => contradiction
          next tail _ =>
            simp only [List.cons_append, step]
            split at found
            · cases found
            next ascii =>
              cases found
              rw [if_neg ascii]
          next => cases found
      | broken =>
          simp only [step] at found
          cases found

/-- Signs are counted in their line. -/
theorem hashes_append (n : Nat) {more : List Char} (ends : EndsLine more) (cs : List Char) :
    hashes n (cs ++ more) = hashes n cs := by
  induction n generalizing cs with
  | zero => cases cs <;> cases more <;> rfl
  | succ n ih =>
      cases cs with
      | nil => cases ends <;> rfl
      | cons c rest => rw [List.cons_append, hashes, hashes, ih]

/-- As many signs as are counted are there. -/
theorem length_le_of_hashes {n : Nat} {cs : List Char} (signs : hashes n cs = true) :
    n ≤ cs.length := by
  induction n generalizing cs with
  | zero => exact Nat.zero_le _
  | succ n ih =>
      cases cs with
      | nil => cases signs
      | cons c rest =>
          rw [hashes, Bool.and_eq_true] at signs
          exact Nat.succ_le_succ (ih signs.2)

/-- One character of a raw string that is not half of a line end. -/
theorem rawBody_cons (content : Content) (n : Nat) {c : Char} (plain : c ≠ '\r')
    (rest : List Char) : rawBody content n (c :: rest) =
      if c == '"' && hashes n rest then some (rest.drop n)
      else if content == .bytes && 0x7F < c.toNat then none
      else if content == .zeroFree && c == '\x00' then none
      else rawBody content n rest := by
  rw [rawBody]
  · simp [plain]
  · exact fun _ same => absurd same plain

/-- A raw string that is closed in its line is the same with other lines behind it. -/
theorem rawBody_keeps (content : Content) (n : Nat) : Keeps (rawBody content n) := by
  intro cs more after ends found
  fun_induction rawBody content n cs with
  | case2 rest ih =>
      rw [List.cons_append, List.cons_append, rawBody]
      exact ih found
  | case3 c rest _ closes =>
      obtain ⟨quote, signs⟩ := Bool.and_eq_true_iff.mp closes
      have plain : c ≠ '\r' := by
        rw [beq_iff_eq.mp quote]
        decide
      cases found
      rw [List.cons_append, rawBody_cons content n plain, hashes_append n ends, if_pos closes,
        List.drop_append_of_le_length (length_le_of_hashes signs)]
  | case7 c rest _ open_ plain ascii nonzero ih =>
      have plain : c ≠ '\r' := fun same => plain (beq_iff_eq.mpr same)
      rw [List.cons_append, rawBody_cons content n plain, hashes_append n ends, if_neg open_,
        if_neg ascii, if_neg nonzero]
      exact ih found
  | _ => cases found

/-- What comes after the number signs in front of a raw string. -/
theorem drop_signs_append {more : List Char} (ends : EndsLine more) (cs : List Char) :
    (cs ++ more).drop ((cs ++ more).takeWhile (· == '#')).length =
      cs.drop (cs.takeWhile (· == '#')).length ++ more := by
  rw [ends.takeWhile_append (by decide) (by decide),
    List.drop_append_of_le_length (List.takeWhile_sublist _).length_le]

/-- So is a raw string with its opening signs. -/
theorem rawString_keeps (content : Content) : Keeps (rawString content) := by
  intro cs more after ends found
  have signs : (cs ++ more).takeWhile (· == '#') = cs.takeWhile (· == '#') :=
    ends.takeWhile_append (by decide) (by decide) cs
  have behind := drop_signs_append ends cs
  rw [signs] at behind
  simp only [rawString, signs, behind] at found ⊢
  split at found
  next rest opened =>
    rw [opened, List.cons_append]
    split at found
    next few =>
      simp only [few, if_true]
      exact rawBody_keeps content _ rest more after ends found
    next => cases found
  next => cases found

/-- After number signs, only a quote starts a raw string. -/
theorem rawString_eq_none (content : Content) {cs : List Char}
    (unquoted : (cs.dropWhile (· == '#')).head? ≠ some '"') : rawString content cs = none := by
  have behind : cs.drop (cs.takeWhile (· == '#')).length = cs.dropWhile (· == '#') := by
    have cut := congrArg (List.drop (cs.takeWhile (· == '#')).length)
      (List.takeWhile_append_dropWhile (p := (· == '#')) (l := cs))
    rw [List.drop_left' rfl] at cut
    exact cut.symm
  simp only [rawString, behind]
  split
  next rest same =>
    rw [same] at unquoted
    exact absurd rfl unquoted
  next => rfl

/-- What a literal with quotes is read with. -/
def quoted (cs : List Char) : Option (List Char) :=
  match cs with
  | '"' :: rest => stringBody .text .plain rest
  | 'b' :: '"' :: rest => stringBody .bytes .plain rest
  | 'c' :: '"' :: rest => stringBody .zeroFree .plain rest
  | 'b' :: 'r' :: rest => rawString .bytes rest
  | 'c' :: 'r' :: rest => rawString .zeroFree rest
  | 'r' :: rest => rawString .text rest
  | 'b' :: '\'' :: rest => singleBody .bytes .plain rest
  | '\'' :: rest => singleBody .text .plain rest
  | _ => none

/-- A literal is a quoted one, or else a number. -/
theorem literal_eq (cs : List Char) : literal cs =
    match quoted cs with
    | some rest => some (skipSuffix rest)
    | none => (float cs).or (integer cs) :=
  rfl

/-- A quoted literal that is closed in its line is the same with other lines behind it. -/
theorem quoted_keeps : Keeps quoted := by
  intro cs more after ends found
  unfold quoted at found
  split at found
  next rest => exact stringBody_keeps .text .plain rest more after ends found
  next rest => exact stringBody_keeps .bytes .plain rest more after ends found
  next rest => exact stringBody_keeps .zeroFree .plain rest more after ends found
  next rest => exact rawString_keeps .bytes rest more after ends found
  next rest => exact rawString_keeps .zeroFree rest more after ends found
  next rest => exact rawString_keeps .text rest more after ends found
  next rest => exact singleBody_keeps .bytes .plain rest more after ends found
  next rest => exact singleBody_keeps .text .plain rest more after ends found
  next => cases found

/-- Literals with quotes start with one of five characters. -/
theorem quoted_eq_none {c : Char} (other : c ∉ ['"', 'b', 'c', 'r', '\'']) (rest : List Char) :
    quoted (c :: rest) = none := by
  unfold quoted
  split <;> simp_all

/-- A letter is a digit of ten or more. -/
theorem ten_le_digitValue {c : Char} (hexadecimal : Text.isHexDigit c = true)
    (letter : c.isDigit = false) : 10 ≤ Text.digitValue c := by
  simp only [Text.isHexDigit, letter, Bool.false_or, Bool.or_eq_true, Bool.and_eq_true,
    decide_eq_true_eq] at hexadecimal
  have code : c = Char.ofNat c.toNat := (Char.ofNat_toNat c).symm
  have range : (97 ≤ c.toNat ∧ c.toNat ≤ 102) ∨ (65 ≤ c.toNat ∧ c.toNat ≤ 70) := hexadecimal
  rw [code]
  generalize c.toNat = n at range
  obtain ⟨low, high⟩ | ⟨low, high⟩ := range
  · interval_cases n <;> decide
  · interval_cases n <;> decide

/-- A number starts with a digit. -/
theorem number_eq_none {c : Char} (letter : c.isDigit = false) (rest : List Char) :
    (float (c :: rest)).or (integer (c :: rest)) = none := by
  have zero {mark : Char} : ¬ ['0', mark].isPrefixOf (c :: rest) = true := by
    intro starts
    obtain ⟨_, same⟩ := List.isPrefixOf_iff_prefix.mp starts
    obtain ⟨rfl, -⟩ := List.cons.inj same
    cases letter
  have decimal : digits 10 false (c :: rest) = none := by
    rw [digits, if_neg (by simp [letter])]
    split
    next hexadecimal =>
      rw [if_neg (Nat.not_lt.mpr (ten_le_digitValue hexadecimal letter))]
      rfl
    next => split <;> rfl
  rw [float, integer_eq, if_neg zero, if_neg zero, if_neg zero, decimal]
  simp [letter]

/-- **Literals keep.** A literal that is closed in its line is the same with other lines behind it.
-/
theorem literal_keeps : Keeps literal := by
  intro cs more after ends found
  rw [literal_eq] at found ⊢
  cases read : quoted cs with
  | some rest =>
      rw [read] at found
      cases found
      rw [quoted_keeps cs more rest ends read]
      exact congrArg some (skipSuffix_append ends rest)
  | none =>
      rw [read] at found
      have nothing : quoted (cs ++ more) = none := by
        cases cs with
        | nil => cases found
        | cons c rest =>
            cases digit : c.isDigit with
            | false =>
                have := number_eq_none digit rest
                rw [this] at found
                cases found
            | true =>
                refine quoted_eq_none (fun listed => ?_) (rest ++ more)
                have letters : ['"', 'b', 'c', 'r', '\''].all (!·.isDigit) = true := by decide
                have letter := List.all_eq_true.mp letters c listed
                rw [digit] at letter
                cases letter
      rw [nothing]
      have number : (float (cs ++ more)).or (integer (cs ++ more)) =
          ((float cs).or (integer cs)).map (· ++ more) := by
        rw [float_agrees _ more ends, integer_agrees _ more ends, Option.map_or]
      exact number.trans (congrArg _ found)

end Literal

end VariantMerge
