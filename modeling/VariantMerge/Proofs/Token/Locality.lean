import VariantMerge.Proofs.Token.Readers

/-!
# Where a lexeme ends

What is read at the start of some characters is read there again if other characters come after it,
as long as these do not go on with it. A literal with quotes ends with its last quote and suffix
(`Literal.quoted_local`), so only characters of words can go on with it, while a number also goes on
with a dot or the sign of an exponent. Names, lifetimes and the literals that do not end like this
(`Lexer.IsLiteral`) are read whole in front of any character that parts words (`Text.Parts`).
-/

namespace VariantMerge

/-- What was read is what stands in front of the rest. -/
theorem Lexer.readPart_self (lexeme after : List Char) :
    Lexer.readPart (lexeme ++ after) after = lexeme := by
  rw [Lexer.readPart, List.length_append, Nat.add_sub_cancel, List.take_left']
  rfl

namespace Literal

variable {content : Content}

/-- What is read stands in front of what is left. -/
def Consumes (read : Reader) : Prop :=
  ∀ cs after, read cs = some after → ∃ lexeme, cs = lexeme ++ after ∧ lexeme ≠ []

/-- What is read does not depend on what comes after it. -/
def Local (read : Reader) : Prop :=
  ∀ lexeme after follow, read (lexeme ++ after) = some after → read (lexeme ++ follow) = some follow

/-- A lexeme has at least one character. -/
theorem Consumes.ne_nil {read : Reader} (consumes : Consumes read) {lexeme after : List Char}
    (found : read (lexeme ++ after) = some after) : lexeme ≠ [] := by
  obtain ⟨taken, same, some_⟩ := consumes _ _ found
  rwa [List.append_cancel_right same]

/-! ## Quoted literals -/

/-- The closing quote is always taken, whatever escape is open. -/
theorem stringBody_consumes (state : QuoteState) : Consumes (stringBody content state) := by
  intro cs after found
  induction cs generalizing state with
  | nil => cases found
  | cons c rest ih =>
      rw [stringBody] at found
      split at found
      · obtain ⟨lexeme, rfl, -⟩ := ih _ found
        exact ⟨c :: lexeme, rfl, List.cons_ne_nil _ _⟩
      · cases found
        exact ⟨[c], rfl, List.cons_ne_nil _ _⟩
      · cases found

/-- A string is closed by its own quote, so what follows is never looked at. -/
theorem stringBody_local (state : QuoteState) : Local (stringBody content state) := by
  intro lexeme after follow found
  induction lexeme generalizing state with
  | nil => exact absurd rfl ((stringBody_consumes state).ne_nil found)
  | cons c rest ih =>
      rw [List.cons_append, stringBody] at found ⊢
      split at found
      · exact ih _ found
      · obtain rfl : rest = [] := List.append_left_eq_self.mp (Option.some.inj found)
        rfl
      · cases found

/-- The closing quote of a character is always taken. -/
theorem singleBody_consumes (state : QuoteState) : Consumes (singleBody content state) := by
  intro cs after found
  induction cs generalizing state with
  | nil => cases found
  | cons c rest ih =>
      rw [singleBody.eq_def] at found
      split at found
      next => contradiction
      next same =>
        cases same
        split at found
        · obtain ⟨lexeme, rfl, -⟩ := ih _ found
          exact ⟨c :: lexeme, rfl, List.cons_ne_nil _ _⟩
        · split at found
          · cases found
          · cases found
            exact ⟨[c, '\''], rfl, List.cons_ne_nil _ _⟩
        · cases found

/-- A character literal is closed by its own quote. -/
theorem singleBody_local (state : QuoteState) : Local (singleBody content state) := by
  intro lexeme after follow found
  induction lexeme generalizing state with
  | nil => exact absurd rfl ((singleBody_consumes state).ne_nil found)
  | cons c rest ih =>
      rw [List.cons_append, singleBody.eq_def] at found ⊢
      cases step : stepSingle content state c with
      | more next =>
          simp only [step] at found ⊢
          exact ih _ found
      | complete =>
          simp only [step] at found ⊢
          split at found
          next => contradiction
          next tail same =>
            split at found
            · cases found
            next ascii =>
              cases found
              obtain rfl : rest = ['\''] := List.append_cancel_right same
              simp [ascii]
          next => cases found
      | broken =>
          simp only [step] at found
          cases found

/-- Signs are counted in the first characters only, if there are enough of them. -/
theorem hashes_append_of_le {n : Nat} {cs : List Char} (long : n ≤ cs.length) (follow : List Char) :
    hashes n (cs ++ follow) = hashes n cs := by
  induction n generalizing cs with
  | zero => cases cs <;> cases follow <;> rfl
  | succ n ih =>
      cases cs with
      | nil => cases long
      | cons c rest => rw [List.cons_append, hashes, hashes, ih (Nat.le_of_succ_le_succ long)]

/-- The body of a raw string has its quote and number signs at least. -/
theorem rawBody_takes {n : Nat} {cs after : List Char} (found : rawBody content n cs = some after) :
    ∃ lexeme, cs = lexeme ++ after ∧ n < lexeme.length := by
  fun_induction rawBody content n cs with
  | case2 rest ih =>
      obtain ⟨lexeme, rfl, long⟩ := ih found
      exact ⟨'\r' :: '\n' :: lexeme, rfl, by simp only [List.length_cons]; omega⟩
  | case3 c rest _ closes =>
      cases found
      have signs := length_le_of_hashes (Bool.and_eq_true_iff.mp closes).2
      refine ⟨c :: rest.take n, by simp, ?_⟩
      rw [List.length_cons, List.length_take_of_le signs]
      exact Nat.lt_succ_self n
  | case7 c rest _ _ _ _ _ ih =>
      obtain ⟨lexeme, rfl, long⟩ := ih found
      exact ⟨c :: lexeme, rfl, Nat.lt_succ_of_lt long⟩
  | _ => cases found

/-- A raw string is closed by a quote with all of its signs. -/
theorem rawBody_local (n : Nat) : Local (rawBody content n) := by
  intro lexeme after follow found
  generalize whole : lexeme ++ after = cs at found
  fun_induction rawBody content n cs generalizing lexeme with
  | case2 rest ih =>
      obtain ⟨tail, rfl, -⟩ := rawBody_takes found
      obtain rfl : lexeme = '\r' :: '\n' :: tail := List.append_cancel_right whole
      rw [List.cons_append, List.cons_append, rawBody]
      exact ih tail rfl found
  | case3 c rest _ closes =>
      obtain ⟨quote, signs⟩ := Bool.and_eq_true_iff.mp closes
      have plain : c ≠ '\r' := by
        rw [beq_iff_eq.mp quote]
        decide
      have inside := length_le_of_hashes signs
      have taken := List.take_append_drop n rest
      rw [Option.some.inj found] at taken
      obtain rfl : lexeme = c :: rest.take n :=
        List.append_cancel_right (whole.trans (congrArg (c :: ·) taken.symm))
      have exactly : (rest.take n).length = n := List.length_take_of_le inside
      rw [← taken, hashes_append_of_le exactly.ge] at closes
      rw [List.cons_append, rawBody_cons content n plain, hashes_append_of_le exactly.ge, if_pos closes,
        List.drop_left' exactly]
  | case7 c rest _ open_ plain ascii nonzero ih =>
      have plain : c ≠ '\r' := fun same => plain (beq_iff_eq.mpr same)
      obtain ⟨tail, rfl, long⟩ := rawBody_takes found
      obtain rfl : lexeme = c :: tail := List.append_cancel_right whole
      rw [hashes_append_of_le long.le] at open_
      rw [List.cons_append, rawBody_cons content n plain, hashes_append_of_le long.le,
        if_neg open_, if_neg ascii, if_neg nonzero]
      exact ih tail rfl found
  | _ => cases found

/-- Number signs are read up to the quote after them. -/
theorem rawString_signs {signs : List Char} (all : ∀ c ∈ signs, (c == '#') = true)
    (rest : List Char) : rawString content (signs ++ '"' :: rest) =
      if signs.length ≤ 255 then rawBody content signs.length rest else none := by
  have taken : (signs ++ '"' :: rest).takeWhile (· == '#') = signs := by
    rw [List.takeWhile_append_of_pos all]
    simp
  rw [rawString, taken, List.drop_left' rfl]
  rfl

/-- A raw string is cut into its opening signs and its body. -/
theorem rawString_cases {cs after : List Char} (found : rawString content cs = some after) :
    ∃ signs body, (∀ c ∈ signs, (c == '#') = true) ∧ signs.length ≤ 255 ∧
      cs = signs ++ '"' :: (body ++ after) ∧
      rawBody content signs.length (body ++ after) = some after := by
  have all : ∀ c ∈ cs.takeWhile (· == '#'), (c == '#') = true :=
    List.all_eq_true.mp List.all_takeWhile
  have quote : (cs.dropWhile (· == '#')).head? = some '"' := by
    by_contra other
    rw [rawString_eq_none content other] at found
    cases found
  obtain ⟨rest, opened⟩ := List.head?_eq_some_iff.mp quote
  have whole := List.takeWhile_append_dropWhile (p := (· == '#')) (l := cs)
  rw [opened] at whole
  rw [← whole, rawString_signs all] at found
  split at found
  next few =>
    obtain ⟨body, rfl, -⟩ := rawBody_takes found
    exact ⟨_, body, all, few, whole.symm, found⟩
  next => cases found

/-- A raw string is not empty, since its quotes are not. -/
theorem rawString_consumes : Consumes (rawString content) := by
  intro cs after found
  obtain ⟨signs, body, -, -, rfl, -⟩ := rawString_cases found
  exact ⟨signs ++ '"' :: body, by simp, by simp⟩

/-- What follows a raw string cannot change where it ends. -/
theorem rawString_local : Local (rawString content) := by
  intro lexeme after follow found
  obtain ⟨signs, body, all, few, whole, inside⟩ := rawString_cases found
  obtain rfl : lexeme = signs ++ '"' :: body :=
    List.append_cancel_right (whole.trans (by simp))
  rw [List.append_assoc, List.cons_append, rawString_signs all, if_pos few]
  exact rawBody_local _ body after follow inside

/-- All quoted literals are made of at least their quotes. -/
theorem quoted_consumes : Consumes quoted := by
  intro cs after found
  have longer (front : List Char) {read : Reader} (consumes : Consumes read) {rest : List Char}
      (found : read rest = some after) : ∃ lexeme, front ++ rest = lexeme ++ after ∧ lexeme ≠ [] := by
    obtain ⟨lexeme, rfl, some_⟩ := consumes _ _ found
    exact ⟨front ++ lexeme, by simp, by simp [some_]⟩
  unfold quoted at found
  split at found
  next rest => exact longer ['"'] (stringBody_consumes _) found
  next rest => exact longer ['b', '"'] (stringBody_consumes _) found
  next rest => exact longer ['c', '"'] (stringBody_consumes _) found
  next rest => exact longer ['b', 'r'] rawString_consumes found
  next rest => exact longer ['c', 'r'] rawString_consumes found
  next rest => exact longer ['r'] rawString_consumes found
  next rest => exact longer ['b', '\''] (singleBody_consumes _) found
  next rest => exact longer ['\''] (singleBody_consumes _) found
  next => cases found

/-- Quoted literals end with their own quotes, whatever their prefix is. -/
theorem quoted_local : Local quoted := by
  intro lexeme after follow found
  have cut (front : List Char) {read : Reader} (consumes : Consumes read) (isLocal : Local read)
      {rest : List Char} (whole : lexeme ++ after = front ++ rest) (found : read rest = some after) :
      ∃ tail, lexeme = front ++ tail ∧ read (tail ++ follow) = some follow := by
    obtain ⟨tail, rfl, -⟩ := consumes _ _ found
    exact ⟨tail, List.append_cancel_right (whole.trans (List.append_assoc ..).symm),
      isLocal _ _ follow found⟩
  generalize whole : lexeme ++ after = cs at found
  unfold quoted at found
  split at found
  next rest =>
    obtain ⟨tail, rfl, read⟩ := cut ['"'] (stringBody_consumes _) (stringBody_local _) whole found
    exact read
  next rest =>
    obtain ⟨tail, rfl, read⟩ := cut ['b', '"'] (stringBody_consumes _) (stringBody_local _) whole found
    exact read
  next rest =>
    obtain ⟨tail, rfl, read⟩ := cut ['c', '"'] (stringBody_consumes _) (stringBody_local _) whole found
    exact read
  next rest =>
    obtain ⟨tail, rfl, read⟩ := cut ['b', 'r'] rawString_consumes rawString_local whole found
    exact read
  next rest =>
    obtain ⟨tail, rfl, read⟩ := cut ['c', 'r'] rawString_consumes rawString_local whole found
    exact read
  next rest =>
    obtain ⟨tail, rfl, read⟩ := cut ['r'] rawString_consumes rawString_local whole found
    exact read
  next rest =>
    obtain ⟨tail, rfl, read⟩ := cut ['b', '\''] (singleBody_consumes _) (singleBody_local _) whole found
    exact read
  next rest =>
    obtain ⟨tail, rfl, read⟩ := cut ['\''] (singleBody_consumes _) (singleBody_local _) whole found
    exact read
  next => cases found

/-! ## Words -/

end Literal

namespace Text

/-- A character that goes on with neither a word nor the prefix of a literal. -/
def partsWords (c : Char) : Bool :=
  !isIdentContinue c && !(['\'', '"', '#'].contains c)

/-- No word goes on with these characters. -/
def Parts (follow : List Char) : Prop :=
  ∀ c ∈ follow.head?, partsWords c = true

/-- What can begin a name can go on with it. -/
theorem isIdentContinue_of_isIdentStart {c : Char} (letter : isIdentStart c = true) :
    isIdentContinue c = true := by
  simp only [isIdentStart, isIdentContinue, Char.isAlphanum, Bool.or_eq_true, Bool.and_eq_true] at *
  tauto

/-- What parts two lexemes does not go on with a name. -/
theorem Parts.isIdentContinue {follow : List Char} (parts : Parts follow) :
    ∀ c ∈ follow.head?, Text.isIdentContinue c = false := by
  intro c first
  have here := parts c first
  simp only [partsWords, Bool.and_eq_true, Bool.not_eq_true'] at here
  exact here.1

/-- A beginning of which the characters after the first one are those of words or of the prefixes of
literals stands in the word already. -/
theorem Parts.isPrefixOf_append {follow : List Char} (parts : Parts follow) {beginning : List Char}
    (within : ∀ c ∈ beginning.tail, partsWords c = false) {lexeme : List Char}
    (some_ : lexeme ≠ []) : beginning.isPrefixOf (lexeme ++ follow) = beginning.isPrefixOf lexeme := by
  have inside (beginning lexeme : List Char) (within : ∀ c ∈ beginning, partsWords c = false) :
      beginning.isPrefixOf (lexeme ++ follow) = beginning.isPrefixOf lexeme := by
    induction beginning generalizing lexeme with
    | nil => simp
    | cons b beginning ih =>
        obtain ⟨goesOn, within⟩ := List.forall_mem_cons.mp within
        cases lexeme with
        | cons c rest => rw [List.cons_append, List.isPrefixOf, List.isPrefixOf, ih rest within]
        | nil =>
            cases follow with
            | nil => rfl
            | cons d follow =>
                have other : b ≠ d := by
                  rintro rfl
                  rw [parts b rfl] at goesOn
                  cases goesOn
                simp [List.isPrefixOf, other]
  cases beginning with
  | nil => simp
  | cons b beginning =>
      cases lexeme with
      | nil => exact absurd rfl some_
      | cons c rest => rw [List.cons_append, List.isPrefixOf, List.isPrefixOf, inside beginning rest within]

end Text

namespace Literal

/-- A word is a letter and all that a word goes on with. -/
theorem word_eq_some_iff {cs after : List Char} : word cs = some after ↔
    ∃ c rest, cs = c :: rest ++ after ∧ Text.isIdentStart c = true ∧
      (∀ d ∈ rest, Text.isIdentContinue d = true) ∧
      ∀ d ∈ after.head?, Text.isIdentContinue d = false := by
  constructor
  · intro found
    obtain ⟨c, rest, rfl, letter⟩ := Lexer.word_isSome found
    rw [word, if_pos letter] at found
    refine ⟨c, rest.takeWhile Text.isIdentContinue, ?_, letter, ?_, ?_⟩
    · rw [← Option.some.inj found, List.cons_append, List.takeWhile_append_dropWhile]
    · exact List.all_eq_true.mp List.all_takeWhile
    · rw [← Option.some.inj found]
      have stops := List.head?_dropWhile_not Text.isIdentContinue rest
      intro d first
      rw [Option.mem_def.mp first] at stops
      exact stops
  · rintro ⟨c, rest, rfl, letter, goesOn, ends⟩
    rw [List.cons_append, word, if_pos letter, List.dropWhile_append_of_pos goesOn]
    cases after with
    | nil => rfl
    | cons d after => rw [List.dropWhile_cons_of_neg (by simp [ends d rfl])]

/-- Read whole in front of whatever parts words. -/
def Ends (read : Reader) : Prop :=
  ∀ lexeme after follow, Text.Parts follow → read (lexeme ++ after) = some after →
    read (lexeme ++ follow) = some follow

/-- A word ends where no character of a name follows. -/
theorem word_ends : Ends word := by
  intro lexeme after follow parts found
  obtain ⟨c, rest, whole, letter, goesOn, -⟩ := word_eq_some_iff.mp found
  exact word_eq_some_iff.mpr ⟨c, rest, by rw [List.append_cancel_right whole], letter, goesOn,
    parts.isIdentContinue⟩

/-- So does a word that may be raw. -/
theorem rawableWord_ends : Ends rawableWord := by
  intro lexeme after follow parts found
  rw [rawableWord_eq] at found ⊢
  split at found
  next raw =>
    obtain ⟨rest, whole⟩ := List.isPrefixOf_iff_prefix.mp raw
    rw [← whole] at found
    simp only [List.cons_append, List.nil_append, List.drop_succ_cons, List.drop_zero] at found
    obtain ⟨behind, read, kept⟩ := Option.bind_eq_some_iff.mp found
    split at kept
    next => cases kept
    next rawable =>
      cases kept
      obtain ⟨c, tail, rfl, -⟩ := word_eq_some_iff.mp read
      obtain rfl : lexeme = 'r' :: '#' :: c :: tail := List.append_cancel_right whole.symm
      have self := Lexer.readPart_self (c :: tail)
      rw [self] at rawable
      have again := word_ends (c :: tail) after follow parts read
      simp only [List.cons_append] at again self ⊢
      rw [if_pos (by simp [List.isPrefixOf])]
      simp only [List.drop_succ_cons, List.drop_zero, again, Option.bind_some, self, if_neg rawable]
  next plain =>
    have some_ : lexeme ≠ [] := by
      obtain ⟨c, rest, whole, -⟩ := word_eq_some_iff.mp found
      rw [List.append_cancel_right whole]
      exact List.cons_ne_nil c rest
    have sign : ∀ c ∈ ['r', '#'].tail, Text.partsWords c = false :=
      List.forall_mem_singleton.mpr (by decide)
    have other : ¬ ['r', '#'].isPrefixOf (lexeme ++ follow) = true := by
      rw [parts.isPrefixOf_append sign some_]
      exact fun starts => plain (List.isPrefixOf_iff_prefix.mpr
        ((List.isPrefixOf_iff_prefix.mp starts).trans (List.prefix_append _ _)))
    rw [if_neg other]
    exact word_ends lexeme after follow parts found

/-- A word has a first letter. -/
theorem rawableWord_ne_nil {lexeme after : List Char}
    (found : rawableWord (lexeme ++ after) = some after) : lexeme ≠ [] := by
  rintro rfl
  have nothing := rawableWord_ends [] after [] (fun _ => nofun) found
  cases nothing

/-- What is left behind a word is an end of the text. -/
theorem rawableWord_suffix {cs after : List Char} (found : rawableWord cs = some after) :
    ∃ lexeme, cs = lexeme ++ after := by
  obtain ⟨rest, rfl, read⟩ | plain := rawableWord_cases found
  · obtain ⟨c, tail, whole, -⟩ := word_eq_some_iff.mp read
    exact ⟨'r' :: '#' :: c :: tail, congrArg (['r', '#'] ++ ·) whole⟩
  · obtain ⟨c, rest, whole, -⟩ := word_eq_some_iff.mp plain
    exact ⟨c :: rest, whole⟩

/-! ## Numbers -/

/-- What is left behind a suffix is an end of the text, also if there is no suffix. -/
theorem skipSuffix_suffix (cs : List Char) : ∃ lexeme, cs = lexeme ++ skipSuffix cs := by
  rw [skipSuffix]
  cases found : word cs with
  | none => exact ⟨[], rfl⟩
  | some after =>
      obtain ⟨c, rest, whole, -⟩ := word_eq_some_iff.mp found
      exact ⟨c :: rest, whole⟩

/-- The suffix of a number ends where no character of a name follows. -/
theorem skipSuffix_ends {lexeme after follow : List Char} (parts : Text.Parts follow)
    (found : skipSuffix (lexeme ++ after) = after) : skipSuffix (lexeme ++ follow) = follow := by
  rw [skipSuffix] at found ⊢
  cases read : word (lexeme ++ after) with
  | some behind =>
      rw [read] at found
      obtain rfl : behind = after := found
      rw [word_ends lexeme behind follow parts read]
      rfl
  | none =>
      rw [read] at found
      obtain rfl : lexeme = [] := List.append_left_eq_self.mp found
      cases again : word ([] ++ follow) with
      | none => rfl
      | some behind =>
          obtain ⟨c, rest, rfl, letter⟩ := Lexer.word_isSome again
          have other := parts.isIdentContinue c rfl
          rw [Text.isIdentContinue_of_isIdentStart letter] at other
          cases other

/-- A number ends behind its suffix, if no other name begins there. -/
theorem numberEnd_eq_some_iff {cs after : List Char} : numberEnd cs = some after ↔
    skipSuffix cs = after ∧ ∀ c ∈ after.head?, Text.isIdentContinue c = false := by
  rw [numberEnd]
  cases skipSuffix cs with
  | nil =>
      constructor
      · rintro ⟨⟩
        exact ⟨rfl, fun c first => absurd first (Option.not_mem_none c)⟩
      · rintro ⟨rfl, -⟩
        rfl
  | cons c rest =>
      cases goesOn : Text.isIdentContinue c with
      | true =>
          simp only [goesOn, if_true, reduceCtorEq, false_iff, not_and]
          rintro rfl ends
          rw [ends c rfl] at goesOn
          cases goesOn
      | false =>
          simp only [goesOn, Bool.false_eq_true, if_false, Option.some.injEq]
          refine ⟨?_, And.left⟩
          rintro rfl
          refine ⟨rfl, ?_⟩
          rintro d ⟨⟩
          exact goesOn

/-- Where a number ends is decided by the next character alone. -/
theorem numberEnd_ends : Ends numberEnd := by
  intro lexeme after follow parts found
  obtain ⟨read, -⟩ := numberEnd_eq_some_iff.mp found
  exact numberEnd_eq_some_iff.mpr ⟨skipSuffix_ends parts read, parts.isIdentContinue⟩

/-- What is left at the end of a number is an end of the text. -/
theorem numberEnd_suffix {cs after : List Char} (found : numberEnd cs = some after) :
    ∃ lexeme, cs = lexeme ++ after := by
  rw [← (numberEnd_eq_some_iff.mp found).1]
  exact skipSuffix_suffix cs

/-- A character that does not go on with digits of the base. -/
def stopsDigits (base : Nat) (c : Char) : Bool :=
  !c.isDigit && c != '_' && (!Text.isHexDigit c || base ≤ Text.digitValue c)

/-- No digit is read in front of a character that stops digits. -/
theorem digits_of_stops {base : Nat} {valued : Bool} {follow : List Char}
    (stops : ∀ c ∈ follow.head?, stopsDigits base c = true) :
    digits base valued follow = if valued then some follow else none := by
  cases follow with
  | nil => rw [digits]
  | cons c rest =>
      have here := stops c rfl
      simp only [stopsDigits, Bool.and_eq_true, Bool.not_eq_true', bne_iff_ne, Bool.or_eq_true,
        decide_eq_true_eq] at here
      obtain ⟨⟨letter, plain⟩, high⟩ := here
      rw [digits, if_neg (by simp [letter])]
      split
      next hexadecimal =>
        rw [if_neg (by simpa [hexadecimal] using high)]
      next => rw [if_neg (by simpa using plain)]

/-- Digits that go on are read one by one, if they are not impossible. -/
theorem digits_cons {base : Nat} {c : Char} (goesOn : stopsDigits base c = false) (valued : Bool) :
    (∀ rest, digits base valued (c :: rest) = none) ∨
      ∃ next, ∀ rest, digits base valued (c :: rest) = digits base next rest := by
  simp only [digits]
  split
  · split
    · exact .inr ⟨true, fun _ => rfl⟩
    · exact .inl fun _ => rfl
  next letter =>
    split
    next hexadecimal =>
      split
      · exact .inr ⟨true, fun _ => rfl⟩
      next high =>
        have plain : c ≠ '_' := by
          rintro rfl
          exact absurd hexadecimal (by decide)
        simp [stopsDigits, letter, plain, Nat.not_lt.mp high] at goesOn
    next other =>
      split
      · split
        · exact .inl fun _ => rfl
        · exact .inr ⟨valued, fun _ => rfl⟩
      next plain =>
        simp only [beq_iff_eq] at plain
        simp [stopsDigits, letter, plain, other] at goesOn

/-- Digits are read up to a character that stops them, and one has to be there unless it was read
before. -/
theorem digits_takes {base : Nat} {valued : Bool} {cs after : List Char}
    (found : digits base valued cs = some after) :
    (∃ lexeme, cs = lexeme ++ after ∧ (valued = false → lexeme ≠ [])) ∧
      ∀ c ∈ after.head?, stopsDigits base c = true := by
  induction cs generalizing valued with
  | nil =>
      cases valued with
      | false => cases found
      | true =>
          cases found
          exact ⟨⟨[], rfl, nofun⟩, fun _ => nofun⟩
  | cons c rest ih =>
      cases stops : stopsDigits base c with
      | true =>
          have here : ∀ d ∈ (c :: rest).head?, stopsDigits base d = true := by
            rintro d ⟨⟩
            exact stops
          rw [digits_of_stops here] at found
          split at found
          next valued =>
            cases found
            exact ⟨⟨[], rfl, by simp [valued]⟩, here⟩
          next => cases found
      | false =>
          obtain nothing | ⟨next, reads⟩ := digits_cons stops valued
          · rw [nothing] at found
            cases found
          · rw [reads] at found
            obtain ⟨⟨lexeme, rfl, -⟩, ends⟩ := ih found
            exact ⟨⟨c :: lexeme, rfl, fun _ => List.cons_ne_nil _ _⟩, ends⟩

/-- Digits are the same in front of any character that stops them. -/
theorem digits_local {base : Nat} {valued : Bool} {lexeme after follow : List Char}
    (stops : ∀ c ∈ follow.head?, stopsDigits base c = true)
    (found : digits base valued (lexeme ++ after) = some after) :
    digits base valued (lexeme ++ follow) = some follow := by
  induction lexeme generalizing valued with
  | nil =>
      have ends := (digits_takes found).2
      rw [List.nil_append, digits_of_stops ends] at found
      rw [List.nil_append, digits_of_stops stops]
      split at found
      next valued => rw [if_pos valued]
      next => cases found
  | cons c rest ih =>
      cases here : stopsDigits base c with
      | true =>
          rw [List.cons_append, digits_of_stops (by rintro d ⟨⟩; exact here)] at found
          split at found
          · have long := congrArg List.length (Option.some.inj found)
            simp only [List.length_cons, List.length_append] at long
            omega
          · cases found
      | false =>
          rw [List.cons_append] at found ⊢
          obtain nothing | ⟨next, reads⟩ := digits_cons here valued
          · rw [nothing] at found
            cases found
          · rw [reads] at found ⊢
            exact ih found

/-- What parts two lexemes stops digits of every base. -/
theorem stopsDigits_of_parts {follow : List Char} (parts : Text.Parts follow) (base : Nat) :
    ∀ c ∈ follow.head?, stopsDigits base c = true := by
  intro c first
  have other := parts.isIdentContinue c first
  simp only [Text.isIdentContinue, Char.isAlphanum, Bool.or_eq_false_iff] at other
  obtain ⟨⟨⟨letter, digit⟩, plain⟩, -⟩ := other
  have low : Text.isHexDigit c = false := by
    refine Bool.eq_false_iff.mpr fun hexadecimal => Bool.eq_false_iff.mp letter ?_
    simp only [Text.isHexDigit, digit, Bool.false_or, Bool.or_eq_true, Bool.and_eq_true,
      decide_eq_true_eq] at hexadecimal
    have range : (97 ≤ c.toNat ∧ c.toNat ≤ 102) ∨ (65 ≤ c.toNat ∧ c.toNat ≤ 70) := hexadecimal
    refine Bool.or_eq_true_iff.mpr (range.symm.imp (fun upper => ?_) fun lower => ?_)
    · have within : 65 ≤ c.toNat ∧ c.toNat ≤ 90 := by omega
      exact decide_eq_true within
    · have within : 97 ≤ c.toNat ∧ c.toNat ≤ 122 := by omega
      exact Bool.and_eq_true_iff.mpr ⟨decide_eq_true within.1, decide_eq_true within.2⟩
  simp only [beq_eq_false_iff_ne] at plain
  simp [stopsDigits, digit, plain, low]

/-- Digits of a base with their suffix. -/
def basedNumber (base : Nat) : Reader := fun cs => (digits base false cs).bind numberEnd

/-- An integer is cut into its digits and its suffix. -/
theorem basedNumber_cases {base : Nat} {cs after : List Char}
    (found : basedNumber base cs = some after) :
    ∃ front suffix, cs = front ++ (suffix ++ after) ∧ front ≠ [] ∧
      digits base false cs = some (suffix ++ after) ∧ numberEnd (suffix ++ after) = some after := by
  obtain ⟨behind, read, ends⟩ := Option.bind_eq_some_iff.mp found
  obtain ⟨⟨front, rfl, some_⟩, -⟩ := digits_takes read
  obtain ⟨suffix, rfl⟩ := numberEnd_suffix ends
  exact ⟨front, suffix, rfl, some_ rfl, read, ends⟩

/-- There is at least one digit. -/
theorem basedNumber_consumes (base : Nat) : Consumes (basedNumber base) := by
  intro cs after found
  obtain ⟨front, suffix, rfl, some_, -⟩ := basedNumber_cases found
  exact ⟨front ++ suffix, by simp, by simp [some_]⟩

/-- An integer of a given base ends where its digits and its suffix do. -/
theorem basedNumber_ends (base : Nat) : Ends (basedNumber base) := by
  intro lexeme after follow parts found
  obtain ⟨front, suffix, whole, -, read, ends⟩ := basedNumber_cases found
  obtain rfl : lexeme = front ++ suffix := List.append_cancel_right (whole.trans (by simp))
  have stops : ∀ c ∈ (suffix ++ follow).head?, stopsDigits base c = true := by
    cases suffix with
    | nil => exact stopsDigits_of_parts parts base
    | cons d suffix => exact (digits_takes read).2
  rw [List.append_assoc] at read
  rw [basedNumber, List.append_assoc, digits_local stops read, Option.bind_some]
  exact numberEnd_ends suffix after follow parts ends

/-- The base of an integer is told from its first two characters. -/
theorem integer_eq_based (cs : List Char) : integer cs =
    if ['0', 'x'].isPrefixOf cs then basedNumber 16 (cs.drop 2)
    else if ['0', 'o'].isPrefixOf cs then basedNumber 8 (cs.drop 2)
    else if ['0', 'b'].isPrefixOf cs then basedNumber 2 (cs.drop 2)
    else basedNumber 10 cs := by
  rw [integer_eq]
  split
  · rfl
  · split
    · rfl
    · split <;> rfl

/-- An integer of any base has a digit. -/
theorem integer_consumes : Consumes integer := by
  intro cs after found
  have marked {mark : Char} {base : Nat} (starts : ['0', mark].isPrefixOf cs = true)
      (found : basedNumber base (cs.drop 2) = some after) :
      ∃ lexeme, cs = lexeme ++ after ∧ lexeme ≠ [] := by
    obtain ⟨rest, rfl⟩ := List.isPrefixOf_iff_prefix.mp starts
    obtain ⟨lexeme, rfl, -⟩ := basedNumber_consumes base _ _ found
    exact ⟨'0' :: mark :: lexeme, rfl, List.cons_ne_nil _ _⟩
  rw [integer_eq_based] at found
  split at found
  next starts => exact marked starts found
  next =>
    split at found
    next starts => exact marked starts found
    next =>
      split at found
      next starts => exact marked starts found
      next => exact basedNumber_consumes 10 _ _ found

/-- An integer of any base ends where a number does. -/
theorem integer_ends : Ends integer := by
  intro lexeme after follow parts found
  have some_ := integer_consumes.ne_nil found
  have based {mark : Char} {base : Nat} (starts : ['0', mark].isPrefixOf (lexeme ++ after) = true)
      (read : basedNumber base ((lexeme ++ after).drop 2) = some after) :
      ['0', mark].isPrefixOf (lexeme ++ follow) = true ∧
        basedNumber base ((lexeme ++ follow).drop 2) = some follow := by
    obtain ⟨rest, whole⟩ := List.isPrefixOf_iff_prefix.mp starts
    rw [← whole] at read
    obtain ⟨tail, rfl, -⟩ := basedNumber_consumes base _ _ read
    obtain rfl : lexeme = '0' :: mark :: tail := List.append_cancel_right whole.symm
    exact ⟨by simp [List.isPrefixOf], basedNumber_ends base tail after follow parts read⟩
  have absent {mark : Char} (goesOn : Text.partsWords mark = false)
      (other : ¬ ['0', mark].isPrefixOf (lexeme ++ after) = true) :
      ¬ ['0', mark].isPrefixOf (lexeme ++ follow) = true := by
    rw [parts.isPrefixOf_append (by simpa using goesOn) some_]
    exact fun starts => other (List.isPrefixOf_iff_prefix.mpr
      ((List.isPrefixOf_iff_prefix.mp starts).trans (List.prefix_append _ _)))
  rw [integer_eq_based] at found ⊢
  split at found
  next starts =>
    obtain ⟨again, read⟩ := based starts found
    rw [if_pos again, read]
  next hexadecimal =>
    rw [if_neg (absent (by decide) hexadecimal)]
    split at found
    next starts =>
      obtain ⟨again, read⟩ := based starts found
      rw [if_pos again, read]
    next octal =>
      rw [if_neg (absent (by decide) octal)]
      split at found
      next starts =>
        obtain ⟨again, read⟩ := based starts found
        rw [if_pos again, read]
      next binary =>
        rw [if_neg (absent (by decide) binary)]
        exact basedNumber_ends 10 lexeme after follow parts found

/-- What is left behind an exponent is an end of the text. -/
theorem exponent_suffix {signed valued : Bool} {cs after : List Char}
    (found : exponent signed valued cs = some after) : ∃ lexeme, cs = lexeme ++ after := by
  induction cs generalizing signed valued with
  | nil =>
      rw [exponent] at found
      split at found
      · cases found
        exact ⟨[], rfl⟩
      · cases found
  | cons c rest ih =>
      have next {signed valued : Bool} (found : exponent signed valued rest = some after) :
          ∃ lexeme, c :: rest = lexeme ++ after := by
        obtain ⟨lexeme, rfl⟩ := ih found
        exact ⟨c :: lexeme, rfl⟩
      rw [exponent] at found
      split at found
      · exact next found
      · split at found
        · exact next found
        · split at found
          · split at found
            · cases found
            · exact next found
          · split at found
            · cases found
              exact ⟨[], rfl⟩
            · cases found

/-- An exponent that is read has at least the letter that begins it. -/
theorem exponent?_consumes : Consumes exponent? := by
  intro cs after found
  cases cs with
  | nil => cases found
  | cons c rest =>
      rw [exponent?] at found
      split at found
      · obtain ⟨lexeme, rfl⟩ := exponent_suffix found
        exact ⟨c :: lexeme, rfl, List.cons_ne_nil _ _⟩
      · cases found

/-- What stands after the digits of a number with a point or an exponent. -/
def fraction (cs : List Char) : Option (List Char) :=
  match cs with
  | '.' :: rest =>
    if rest.head?.any fun d => d == '.' || Text.isIdentStart d then none
    else
      let digits := rest.dropWhile isDigitOrUnderscore
      numberEnd ((exponent? digits).getD digits)
  | rest => (exponent? rest).bind numberEnd

/-- A number with a fraction begins with its first run of digits. -/
theorem float_cons {c : Char} (digit : c.isDigit = true) (rest : List Char) :
    float (c :: rest) = fraction ((c :: rest).dropWhile isDigitOrUnderscore) := by
  rw [float, if_pos digit]
  rfl

/-- The point, or the exponent, is always taken. -/
theorem fraction_consumes : Consumes fraction := by
  intro cs after found
  unfold fraction at found
  split at found
  next rest =>
    split at found
    · cases found
    · obtain ⟨late, ends⟩ := numberEnd_suffix found
      have cut := List.takeWhile_append_dropWhile (p := isDigitOrUnderscore) (l := rest)
      cases valued : exponent? (rest.dropWhile isDigitOrUnderscore) with
      | none =>
          rw [valued] at ends
          refine ⟨'.' :: (rest.takeWhile isDigitOrUnderscore ++ late), ?_, List.cons_ne_nil _ _⟩
          rw [List.cons_append, List.append_assoc, ← ends]
          exact congrArg _ cut.symm
      | some behind =>
          rw [valued] at ends
          obtain ⟨front, same, -⟩ := exponent?_consumes _ _ valued
          refine ⟨'.' :: (rest.takeWhile isDigitOrUnderscore ++ front ++ late), ?_,
            List.cons_ne_nil _ _⟩
          have behind_ : behind = late ++ after := ends
          rw [List.cons_append, List.append_assoc, List.append_assoc, ← behind_, ← same, cut]
  next =>
    obtain ⟨behind, read, ends⟩ := Option.bind_eq_some_iff.mp found
    obtain ⟨front, rfl, some_⟩ := exponent?_consumes _ _ read
    obtain ⟨late, rfl⟩ := numberEnd_suffix ends
    exact ⟨front ++ late, by simp, by simp [some_]⟩

/-- A number with a fraction begins with a digit. -/
theorem float_consumes : Consumes float := by
  intro cs after found
  cases cs with
  | nil => cases found
  | cons c rest =>
      cases digit : c.isDigit with
      | false => simp [float, digit] at found
      | true =>
          rw [float_cons digit] at found
          obtain ⟨lexeme, same, some_⟩ := fraction_consumes _ _ found
          have whole := List.takeWhile_append_dropWhile (p := isDigitOrUnderscore) (l := c :: rest)
          rw [same] at whole
          exact ⟨_ ++ lexeme, by rw [List.append_assoc, whole], by simp [some_]⟩

/-! ## All literals -/

/-- The characters of a number that nothing but characters of words goes on with: it has no point,
and no exponent could follow its digits. -/
def isWholeNumber (cs : List Char) : Bool :=
  cs.all Text.isIdentContinue &&
    !(cs.dropWhile isDigitOrUnderscore).head?.any fun c => c == 'e' || c == 'E'

/-- Every literal has a character. -/
theorem literal_consumes : Consumes literal := by
  intro cs after found
  rw [literal_eq] at found
  split at found
  next rest read =>
    obtain ⟨front, rfl, some_⟩ := quoted_consumes _ _ read
    obtain ⟨suffix, same⟩ := skipSuffix_suffix rest
    rw [Option.some.inj found] at same
    exact ⟨front ++ suffix, by rw [List.append_assoc, ← same], by simp [some_]⟩
  next =>
    obtain read | ⟨-, read⟩ := Option.or_eq_some_iff.mp found
    · exact float_consumes _ _ read
    · exact integer_consumes _ _ read

/-- A fraction starts with a point or the letter of an exponent. -/
theorem fraction_eq_none {cs : List Char}
    (other : ∀ c ∈ cs.head?, c ≠ '.' ∧ c ≠ 'e' ∧ c ≠ 'E') : fraction cs = none := by
  cases cs with
  | nil => rfl
  | cons c rest =>
      obtain ⟨point, small, capital⟩ := other c rfl
      unfold fraction
      split
      next same => exact absurd (List.cons.inj same).1 point
      next => simp [exponent?, small, capital]

/-- Digits and underscores go on with a name, so a number is not cut inside a name. -/
theorem isDigitOrUnderscore_goesOn {c : Char} (digit : isDigitOrUnderscore c = true) :
    Text.isIdentContinue c = true := by
  simp only [isDigitOrUnderscore, Bool.or_eq_true] at digit
  simp only [Text.isIdentContinue, Char.isAlphanum, Bool.or_eq_true]
  tauto

/-- What stands after the digits of a whole number and starts like nothing that goes on with it. -/
theorem float_wholeNumber {c : Char} {rest : List Char} (digit : c.isDigit = true)
    (whole : isWholeNumber (c :: rest) = true) (follow : List Char) :
    float (c :: rest ++ follow) = none ∨
      float (c :: rest ++ follow) = fraction (follow.dropWhile isDigitOrUnderscore) := by
  rw [isWholeNumber, Bool.and_eq_true, List.all_eq_true, Bool.not_eq_true'] at whole
  obtain ⟨goesOn, plain⟩ := whole
  rw [List.cons_append, float_cons digit, ← List.cons_append, List.dropWhile_append]
  split
  · exact .inr rfl
  next stops =>
    refine .inl (fraction_eq_none ?_)
    cases same : (c :: rest).dropWhile isDigitOrUnderscore with
    | nil => simp [same] at stops
    | cons d tail =>
        rintro e ⟨⟩
        have listed : d ∈ c :: rest :=
          (List.dropWhile_sublist isDigitOrUnderscore).subset (same ▸ List.mem_cons_self)
        have word := goesOn d listed
        rw [same] at plain
        simp only [List.head?_cons, Option.any_some, Bool.or_eq_false_iff,
          beq_eq_false_iff_ne] at plain
        refine ⟨?_, plain⟩
        rintro rfl
        exact absurd word (by decide)

/-- A whole number is read in front of whatever parts words and is no point. -/
theorem literal_ends_of_wholeNumber {c : Char} {rest after follow : List Char}
    (digit : c.isDigit = true) (whole : isWholeNumber (c :: rest) = true)
    (parts : Text.Parts follow) (point : follow.head? ≠ some '.')
    (found : literal (c :: rest ++ after) = some after) :
    literal (c :: rest ++ follow) = some follow := by
  have unquoted (cs : List Char) : quoted (c :: cs) = none := by
    refine quoted_eq_none (fun listed => ?_) cs
    have letters : ['"', 'b', 'c', 'r', '\''].all (!·.isDigit) = true := by decide
    have letter := List.all_eq_true.mp letters c listed
    rw [digit] at letter
    cases letter
  rw [List.cons_append, literal_eq, unquoted, ← List.cons_append] at found ⊢
  have isInteger : integer (c :: rest ++ after) = some after := by
    obtain read | ⟨-, read⟩ := Option.or_eq_some_iff.mp found
    · obtain none_ | same := float_wholeNumber digit whole after
      · rw [none_] at read
        cases read
      · rw [same] at read
        obtain ⟨lexeme, behind, some_⟩ := fraction_consumes _ _ read
        have shorter := (List.dropWhile_sublist (l := after) isDigitOrUnderscore).length_le
        rw [behind, List.length_append] at shorter
        have := List.length_pos_iff.mpr some_
        omega
    · exact read
  have noFloat : float (c :: rest ++ follow) = none := by
    obtain none_ | same := float_wholeNumber digit whole follow
    · exact none_
    · rw [same]
      refine fraction_eq_none ?_
      cases follow with
      | nil => exact fun _ => nofun
      | cons d follow =>
          have other := parts.isIdentContinue d rfl
          rw [List.dropWhile_cons_of_neg]
          · rintro e ⟨⟩
            refine ⟨fun same => point (same ▸ rfl), ?_, ?_⟩
            · rintro rfl
              exact absurd other (by decide)
            · rintro rfl
              exact absurd other (by decide)
          · intro digits
            rw [isDigitOrUnderscore_goesOn digits] at other
            cases other
  simp only [noFloat, Option.none_or]
  exact integer_ends _ after follow parts isInteger

/-- A literal that begins with a quote is not read as anything else. -/
theorem literal_ends_of_quoted {lexeme after follow rest : List Char} (parts : Text.Parts follow)
    (read : quoted (lexeme ++ after) = some rest)
    (found : literal (lexeme ++ after) = some after) :
    literal (lexeme ++ follow) = some follow := by
  rw [literal_eq, read] at found
  have ends : skipSuffix rest = after := Option.some.inj found
  obtain ⟨suffix, same⟩ := skipSuffix_suffix rest
  rw [ends] at same
  obtain ⟨front, whole, -⟩ := quoted_consumes _ _ read
  rw [same] at read ends whole
  obtain rfl : lexeme = front ++ suffix := List.append_cancel_right (whole.trans (by simp))
  rw [List.append_assoc] at read
  rw [literal_eq, List.append_assoc, quoted_local front _ (suffix ++ follow) read]
  exact congrArg some (skipSuffix_ends parts ends)

end Literal

namespace Lexer

/-- A name ends where no character of a name follows. -/
theorem name_ends : Literal.Ends name := by
  intro lexeme after follow parts found
  have told : literalStarts.all (·.toList.tail.all (!Text.partsWords ·)) = true := by decide
  rw [name] at found ⊢
  split at found
  next => cases found
  next plain =>
    have some_ := Literal.rawableWord_ne_nil found
    rw [if_neg]
    · exact Literal.rawableWord_ends lexeme after follow parts found
    · intro starts
      obtain ⟨start, listed, starts⟩ := List.any_eq_true.mp starts
      have within := List.all_eq_true.mp (List.all_eq_true.mp told start listed)
      rw [parts.isPrefixOf_append (by simpa using within) some_] at starts
      exact plain (List.any_eq_true.mpr ⟨start, listed, List.isPrefixOf_iff_prefix.mpr
        ((List.isPrefixOf_iff_prefix.mp starts).trans (List.prefix_append _ _))⟩)

/-- The name of a lifetime is a word that no quote follows. -/
theorem lifetimeName_of_rawableWord {cs after : List Char} (parts : Text.Parts after)
    (found : Literal.rawableWord cs = some after) : lifetimeName cs = some after := by
  rw [lifetimeName, found]
  split
  next same =>
    cases same
    exact absurd (parts '\'' rfl) (by decide)
  next same =>
    cases same
    exact absurd (parts '#' rfl) (by decide)
  next => rfl

/-- The name of a lifetime is always a word. -/
theorem rawableWord_of_lifetimeName {cs after : List Char} (found : lifetimeName cs = some after) :
    Literal.rawableWord cs = some after := by
  rw [lifetimeName] at found
  split at found
  next => cases found
  next read =>
    split at found
    · rw [read, found]
    · cases found
  next => exact found

/-- What is read as a literal and has no number in it that could go on with a point or the sign of an
exponent. -/
def IsLiteral (lexeme : List Char) : Prop :=
  (∃ after, literal (lexeme ++ after) = some after) ∧
    ∀ c ∈ lexeme.head?, c.isDigit = true → Literal.isWholeNumber lexeme = true

/-- A literal of the lexer has a character. -/
theorem literal_consumes : Literal.Consumes literal := by
  intro cs after found
  rw [literal] at found
  split at found
  next marked =>
    obtain ⟨rest, rfl⟩ := List.isPrefixOf_iff_prefix.mp marked
    rw [List.drop_left' rfl] at found
    cases found
    exact ⟨failureMark, rfl, List.cons_ne_nil _ _⟩
  next => exact Literal.literal_consumes _ _ found

/-- **Literals end.** A literal is read in front of whatever parts words, if a number does not go on
with a point. -/
theorem IsLiteral.ends {lexeme follow : List Char} (isLiteral : IsLiteral lexeme)
    (parts : Text.Parts follow)
    (point : ∀ c ∈ lexeme.head?, c.isDigit = true → follow.head? ≠ some '.') :
    literal (lexeme ++ follow) = some follow := by
  obtain ⟨⟨after, found⟩, whole⟩ := isLiteral
  obtain ⟨c, rest, rfl⟩ := List.exists_cons_of_ne_nil (literal_consumes.ne_nil found)
  rw [literal] at found ⊢
  split at found
  next marked =>
    obtain ⟨behind, same⟩ := List.isPrefixOf_iff_prefix.mp marked
    rw [← same, List.drop_left' rfl] at found
    cases found
    obtain isMark : failureMark = c :: rest := List.append_cancel_right same
    rw [← isMark, if_pos (List.isPrefixOf_iff_prefix.mpr (List.prefix_append _ _)),
      List.drop_left' rfl]
  next =>
    have other : c ≠ '(' := by
      rintro rfl
      rw [List.cons_append, Literal.literal_eq, Literal.quoted_eq_none (by decide)] at found
      rw [Literal.number_eq_none (by decide)] at found
      cases found
    rw [List.cons_append, failureMark_eq_false other, if_neg Bool.false_ne_true, ← List.cons_append]
    cases read : Literal.quoted (c :: rest ++ after) with
    | some behind => exact Literal.literal_ends_of_quoted parts read found
    | none =>
        have digit : c.isDigit = true := by
          by_contra letter
          rw [Literal.literal_eq, read, List.cons_append] at found
          simp only [Literal.number_eq_none (Bool.eq_false_iff.mpr letter)] at found
          cases found
        exact Literal.literal_ends_of_wholeNumber digit (whole c rfl digit) parts (point c rfl digit)
          found

end Lexer

end VariantMerge
