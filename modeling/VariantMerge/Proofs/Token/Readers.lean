import VariantMerge.Proofs.Token.LineEnds

/-!
# The readers of the lexer and the ends of lines

What the lexer finds at the beginning of a line it also finds if other lines come after that one:
words, lifetimes, punctuation and literals (`Lexer.leaf?_keeps`), and comments
(`Lexer.plainComment?_keeps`, `Lexer.docComment?_keeps`). Only a comment up to the end of its line
takes in the carriage return in front of a line feed.
-/

namespace VariantMerge

namespace Lexer

/-! ## Words, lifetimes and punctuation -/

/-- A name ends in its line. -/
theorem name_agrees : Agrees name := by
  intro cs more ends
  have plain : ∀ start ∈ literalStarts, '\n' ∉ start.toList ∧ '\r' ∉ start.toList := by decide
  have starts : (literalStarts.any fun start => start.toList.isPrefixOf (cs ++ more)) =
      literalStarts.any fun start => start.toList.isPrefixOf cs := by
    rw [Bool.eq_iff_iff, List.any_eq_true, List.any_eq_true]
    refine exists_congr fun start => and_congr_right fun listed => ?_
    rw [ends.isPrefixOf_append (plain start listed).1 (plain start listed).2]
  rw [name, name, starts]
  split
  · rfl
  · exact Literal.rawableWord_agrees cs more ends

/-- So does the name of a lifetime. -/
theorem lifetimeName_agrees : Agrees lifetimeName := by
  intro cs more ends
  rw [lifetimeName, lifetimeName, Literal.rawableWord_agrees cs more ends,
    ends.isPrefixOf_append (by decide) (by decide)]
  cases read : Literal.rawableWord cs with
  | none => rfl
  | some after =>
      cases after with
      | nil => cases ends <;> rfl
      | cons c rest =>
          simp only [Option.map_some, List.cons_append]
          by_cases quote : c = '\''
          · subst quote
            rfl
          by_cases sign : c = '#'
          · subst sign
            simp only
            split <;> rfl
          · have other (tail : List Char) (d : Char) (differs : c ≠ d) (after : List Char) :
                some (c :: tail) ≠ some (d :: after) := fun same =>
              differs (List.cons.inj (Option.some.inj same)).1
            split
            next same => exact absurd same (other _ _ quote _)
            next same => exact absurd same (other _ _ sign _)
            next =>
              split
              next same => exact absurd same (other _ _ quote _)
              next same => exact absurd same (other _ _ sign _)
              next => rfl

/-- A comment begins with one of two pairs of signs. -/
theorem startsComment_eq (cs : List Char) :
    startsComment cs = (['/', '/'].isPrefixOf cs || ['/', '*'].isPrefixOf cs) := by
  fun_cases startsComment cs with
  | case1 => simp [List.isPrefixOf]
  | case2 => simp [List.isPrefixOf]
  | case3 _ line block =>
      have apart {mark : Char} (other : ∀ rest, cs = '/' :: mark :: rest → False) :
          ['/', mark].isPrefixOf cs = false := by
        refine Bool.eq_false_iff.mpr fun starts => ?_
        obtain ⟨rest, rfl⟩ := List.isPrefixOf_iff_prefix.mp starts
        exact other rest rfl
      rw [apart line, apart block]
      rfl

/-- Whether a comment begins does not depend on the lines behind. -/
theorem startsComment_append {more : List Char} (ends : EndsLine more) (cs : List Char) :
    startsComment (cs ++ more) = startsComment cs := by
  rw [startsComment_eq, startsComment_eq, ends.isPrefixOf_append (by decide) (by decide),
    ends.isPrefixOf_append (by decide) (by decide)]

/-- Whether a sign begins does not depend on the lines behind. -/
theorem startsPunct_append {more : List Char} (ends : EndsLine more) (cs : List Char) :
    startsPunct (cs ++ more) = startsPunct cs := by
  rw [startsPunct, startsPunct, startsComment_append ends]
  cases cs with
  | nil => cases ends <;> rfl
  | cons c rest => rfl

/-! ## What is no literal -/

/-- What begins a name is no digit. -/
theorem isDigit_eq_false {c : Char} (letter : Text.isIdentStart c = true) : c.isDigit = false := by
  refine Bool.eq_false_iff.mpr fun digit => ?_
  have code : c = Char.ofNat c.toNat := (Char.ofNat_toNat c).symm
  have range : 48 ≤ c.toNat ∧ c.toNat ≤ 57 := by
    simpa [Char.isDigit, UInt32.le_iff_toNat_le] using digit
  rw [code] at letter
  obtain ⟨low, high⟩ := range
  generalize c.toNat = n at letter low high
  revert letter
  interval_cases n <;> decide

/-- A word begins with a letter. -/
theorem word_isSome {cs after : List Char} (found : Literal.word cs = some after) :
    ∃ c rest, cs = c :: rest ∧ Text.isIdentStart c = true := by
  cases cs with
  | nil => cases found
  | cons c rest =>
      rw [Literal.word] at found
      split at found
      next letter => exact ⟨c, rest, rfl, letter⟩
      next => cases found

/-- A word starts with a letter, also if it is raw. -/
theorem rawableWord_starts {cs after : List Char} (found : Literal.rawableWord cs = some after) :
    ∃ c rest, cs = c :: rest ∧ Text.isIdentStart c = true := by
  obtain ⟨rest, rfl, -⟩ | plain := Literal.rawableWord_cases found
  · exact ⟨'r', '#' :: rest, rfl, by decide⟩
  · exact word_isSome plain

/-- A name is a word that may be raw. -/
theorem rawableWord_of_name {cs after : List Char} (found : name cs = some after) :
    Literal.rawableWord cs = some after := by
  rw [name] at found
  split at found
  · cases found
  · exact found

/-- A name begins with a letter. -/
theorem name_starts {cs after : List Char} (found : name cs = some after) :
    ∃ c rest, cs = c :: rest ∧ Text.isIdentStart c = true :=
  rawableWord_starts (rawableWord_of_name found)

/-- The name of a lifetime begins with a letter. -/
theorem lifetimeName_starts {cs after : List Char} (found : lifetimeName cs = some after) :
    ∃ c rest, cs = c :: rest ∧ Text.isIdentStart c = true := by
  cases read : Literal.rawableWord cs with
  | none =>
      rw [lifetimeName, read] at found
      cases found
  | some behind => exact rawableWord_starts read

/-- No word is read where the start of a literal stands. -/
theorem ne_literalStart_of_name {cs after : List Char} (found : name cs = some after) {start : String}
    (listed : start ∈ literalStarts) (rest : List Char) : cs ≠ start.toList ++ rest := by
  rintro rfl
  have starts : start.toList.isPrefixOf (start.toList ++ rest) = true :=
    List.isPrefixOf_iff_prefix.mpr (List.prefix_append _ _)
  rw [name, if_pos (List.any_eq_true.mpr ⟨start, listed, starts⟩)] at found
  cases found

/-- A raw literal goes on with a quote, or with number signs and a quote. -/
theorem rawString_eq_none_of_start (content : Literal.Content) {rest : List Char}
    (quote : ∀ after, rest ≠ '"' :: after)
    (sign : ∀ after, rest = '#' :: after →
      (∀ last, after ≠ '"' :: last) ∧ ∀ last, after ≠ '#' :: last) :
    Literal.rawString content rest = none := by
  refine Literal.rawString_eq_none content ?_
  cases rest with
  | nil => simp
  | cons d rest =>
      by_cases signed : d = '#'
      · obtain ⟨noQuote, noSign⟩ := sign rest (by rw [signed])
        cases rest with
        | nil => simp [signed]
        | cons e last =>
            have plain : e ≠ '#' := fun same => noSign last (by rw [same])
            simpa [signed, plain] using fun same : e = '"' => noQuote last (by rw [same])
      · simpa [signed] using fun same : d = '"' => quote rest (by rw [same])

/-- Where a word is read, no literal with quotes could be meant. -/
theorem quoted_eq_none_of_name {cs after : List Char} (found : name cs = some after) :
    Literal.quoted cs = none := by
  have letter {c : Char} {rest : List Char} (same : cs = c :: rest) :
      Text.isIdentStart c = true := by
    obtain ⟨first, others, starts, letter⟩ := name_starts found
    rw [starts] at same
    exact (List.cons.inj same).1 ▸ letter
  have other (start : String) (listed : start ∈ literalStarts) (rest : List Char)
      (same : cs = start.toList ++ rest) : False :=
    ne_literalStart_of_name found listed rest same
  fun_cases Literal.quoted cs with
  | case1 rest => exact absurd (letter rfl) (by decide)
  | case2 rest => exact (other "b\"" (by decide) rest rfl).elim
  | case3 rest => exact (other "c\"" (by decide) rest rfl).elim
  | case4 rest =>
      exact rawString_eq_none_of_start .bytes
        (fun after same => other "br\"" (by decide) after (by rw [same]; rfl))
        fun after same => (other "br#" (by decide) after (by rw [same]; rfl)).elim
  | case5 rest =>
      exact rawString_eq_none_of_start .zeroFree
        (fun after same => other "cr\"" (by decide) after (by rw [same]; rfl))
        fun after same => (other "cr#" (by decide) after (by rw [same]; rfl)).elim
  | case6 rest =>
      refine rawString_eq_none_of_start .text
        (fun after same => other "r\"" (by decide) after (by rw [same]; rfl))
        fun after same => ⟨fun last next => ?_, fun last next => ?_⟩
      · exact other "r#\"" (by decide) last (by rw [same, next]; rfl)
      · exact other "r##" (by decide) last (by rw [same, next]; rfl)
  | case7 rest => exact (other "b'" (by decide) rest rfl).elim
  | case8 rest => exact absurd (letter rfl) (by decide)
  | case9 => rfl

/-- Only a parenthesis can begin the mark of a failure. -/
theorem failureMark_eq_false {c : Char} (other : c ≠ '(') (rest : List Char) :
    failureMark.isPrefixOf (c :: rest) = false := by
  simp [failureMark, List.isPrefixOf, Ne.symm other]

/-- Where a word is read, there is no literal. -/
theorem literal_eq_none_of_name {cs after : List Char} (found : name cs = some after) :
    literal cs = none := by
  have unquoted := quoted_eq_none_of_name found
  obtain ⟨c, rest, rfl, letter⟩ := name_starts found
  have other : c ≠ '(' := by
    rintro rfl
    exact absurd letter (by decide)
  rw [literal, failureMark_eq_false other, if_neg Bool.false_ne_true, Literal.literal_eq, unquoted]
  exact Literal.number_eq_none (isDigit_eq_false letter) rest

/-- Punctuation is no literal, but for the quote. -/
theorem literal_eq_none_of_punct {c : Char} {rest : List Char}
    (punct : startsPunct (c :: rest) = true) (unquoted : c ≠ '\'') :
    literal (c :: rest) = none := by
  have listed : c ∈ punctuation := by
    have head := (Bool.and_eq_true_iff.mp punct).1
    exact List.contains_iff_mem.mp head
  have told : punctuation.all (fun c => c == '\'' || (c != '(' && !c.isDigit &&
      !(['"', 'b', 'c', 'r', '\''].contains c))) = true := by decide
  have here := List.all_eq_true.mp told c listed
  simp only [Bool.or_eq_true, beq_iff_eq, unquoted, false_or, Bool.and_eq_true, bne_iff_ne,
    Bool.not_eq_true', List.contains_eq_mem, decide_eq_false_iff_not] at here
  obtain ⟨⟨other, letter⟩, plain⟩ := here
  rw [literal, failureMark_eq_false other, if_neg Bool.false_ne_true, Literal.literal_eq,
    Literal.quoted_eq_none plain rest]
  exact Literal.number_eq_none letter rest

/-! ## Single tokens -/

/-- A literal that is read in its line is the same with other lines behind it. -/
theorem literal_keeps : Keeps literal := by
  intro cs more after ends found
  have marked : failureMark.isPrefixOf (cs ++ more) = failureMark.isPrefixOf cs :=
    ends.isPrefixOf_append (by decide) (by decide) cs
  rw [literal] at found ⊢
  rw [marked]
  split at found
  next starts =>
    cases found
    have inside := (List.isPrefixOf_iff_prefix.mp starts).length_le
    rw [if_pos starts, List.drop_append_of_le_length inside]
  next other =>
    rw [if_neg other]
    exact Literal.literal_keeps cs more after ends found

/-- Behind a quote, the rest of a character literal is read. -/
theorem literal_quote (cs : List Char) :
    literal ('\'' :: cs) = (Literal.singleBody .text .plain cs).map Literal.skipSuffix := by
  have quoted : Literal.quoted ('\'' :: cs) = Literal.singleBody .text .plain cs := rfl
  have number := Literal.number_eq_none (c := '\'') (by decide) cs
  rw [literal, failureMark_eq_false (by decide), if_neg Bool.false_ne_true, Literal.literal_eq, quoted,
    number]
  cases Literal.singleBody .text .plain cs <;> rfl

/-- A letter behind a quote is a whole character. -/
theorem stepSingle_letter {c : Char} (letter : Text.isIdentStart c = true) :
    Literal.stepSingle .text .plain c = .complete := by
  have plain : c ≠ '\\' := by
    rintro rfl
    exact absurd letter (by decide)
  simp [Literal.stepSingle, plain]

/-- A lifetime is no character literal, whatever follows its line. -/
theorem literal_eq_none_of_lifetime {rest more after : List Char} (ends : EndsLine more)
    (nothing : literal ('\'' :: rest) = none) (found : lifetimeName rest = some after) :
    literal ('\'' :: (rest ++ more)) = none := by
  rw [literal_quote, Option.map_eq_none_iff] at nothing ⊢
  obtain ⟨c, tail, rfl, letter⟩ := lifetimeName_starts found
  have step := stepSingle_letter letter
  rw [Literal.singleBody.eq_def] at nothing
  rw [List.cons_append, Literal.singleBody.eq_def]
  simp only [step] at nothing ⊢
  cases tail with
  | nil => cases ends <;> rfl
  | cons d behind =>
      by_cases quote : d = '\''
      · subst quote
        cases nothing
      · rw [List.cons_append]
        split
        next => contradiction
        next same => exact absurd (List.cons.inj same).1 quote
        next => rfl

/-- What is neither a literal nor starts with a quote is punctuation or a word. -/
theorem leaf?_cons {line : Nat} {c : Char} {rest : List Char} (nothing : literal (c :: rest) = none)
    (unquoted : c ≠ '\'') : leaf? line (c :: rest) =
      if startsPunct (c :: rest) then some (.punct line c (startsPunct rest), rest)
      else (name (c :: rest)).map fun after =>
        (.ident line (String.ofList (readPart (c :: rest) after)), after) := by
  rw [leaf?.eq_def, nothing]
  simp only

/-- What starts with no quote, digit, letter or punctuation is no token. -/
theorem leaf?_eq_none {c : Char} {rest : List Char} (unquoted : c ∉ ['"', 'b', 'c', 'r', '\'', '('])
    (digit : c.isDigit = false) (letter : Text.isIdentStart c = false)
    (punct : startsPunct (c :: rest) = false) (line : Nat) : leaf? line (c :: rest) = none := by
  have plain : c ∉ ['"', 'b', 'c', 'r', '\''] := fun listed =>
    unquoted (List.mem_append_left ['('] listed)
  have other : c ≠ '(' := by
    rintro rfl
    exact unquoted (by decide)
  have noQuote : c ≠ '\'' := by
    rintro rfl
    exact unquoted (by decide)
  have nothing : literal (c :: rest) = none := by
    rw [literal, failureMark_eq_false other, if_neg Bool.false_ne_true, Literal.literal_eq,
      Literal.quoted_eq_none plain rest]
    exact Literal.number_eq_none digit rest
  have unnamed : name (c :: rest) = none := by
    cases read : name (c :: rest) with
    | none => rfl
    | some after =>
        obtain ⟨first, tail, same, starts⟩ := name_starts read
        cases same
        exact absurd starts (by rw [letter]; exact Bool.false_ne_true)
  rw [leaf?_cons nothing noQuote, punct, unnamed]
  rfl

/-- A leaf that is read in its line is the same with other lines behind it. -/
theorem leaf?_keeps {line : Nat} {cs more after : List Char} {tree : Tree} (ends : EndsLine more)
    (found : leaf? line cs = some (tree, after)) :
    leaf? line (cs ++ more) = some (tree, after ++ more) := by
  cases read : literal cs with
  | some rest =>
      rw [leaf?.eq_def, read] at found
      cases found
      rw [leaf?.eq_def, literal_keeps cs more after ends read]
      simp only [readPart_append]
  | none =>
      cases cs with
      | nil =>
          rw [leaf?.eq_def, read] at found
          cases found
      | cons c rest =>
          by_cases quote : c = '\''
          · subst quote
            rw [leaf?.eq_def, read] at found
            obtain ⟨behind, named, same⟩ := Option.map_eq_some_iff.mp found
            cases same
            rw [List.cons_append, leaf?.eq_def, literal_eq_none_of_lifetime ends read named]
            simp only [lifetimeName_agrees rest more ends, named, Option.map_some, readPart_append]
          rw [leaf?_cons read quote] at found
          have sameStart := startsPunct_append ends (c :: rest)
          rw [List.cons_append] at sameStart
          split at found
          next punct =>
            cases found
            rw [← sameStart] at punct
            rw [List.cons_append, leaf?_cons (literal_eq_none_of_punct punct quote) quote,
              if_pos punct, startsPunct_append ends]
          next other =>
            obtain ⟨behind, named, same⟩ := Option.map_eq_some_iff.mp found
            cases same
            have read' := name_agrees (c :: rest) more ends
            rw [named, List.cons_append, Option.map_some] at read'
            rw [List.cons_append, leaf?_cons (literal_eq_none_of_name read') quote, sameStart,
              if_neg other, read', Option.map_some, ← List.cons_append, readPart_append]

/-! ## Comments -/

/-- A comment that is closed in its line is the same with other lines behind it. -/
theorem blockComment_keeps (depth : Nat) : Keeps (blockComment depth) := by
  intro cs more after ends found
  fun_induction blockComment depth cs with
  | case1 rest =>
      cases found
      rfl
  | case2 depth rest ih => exact ih found
  | case3 depth rest ih =>
      rw [List.cons_append, List.cons_append, blockComment]
      exact ih found
  | case4 depth c rest closes closesInner opens ih =>
      cases rest with
      | nil =>
          rw [blockComment] at found
          cases found
      | cons d tail =>
          rw [List.cons_append, blockComment]
          · exact ih found
          · exact fun _ slash star => opens tail slash (by cases star; rfl)
          · exact fun _ zero star slash => closes tail zero star (by cases slash; rfl)
          · exact fun _ _ more star slash => closesInner _ tail more star (by cases slash; rfl)
  | case5 => cases found

/-- Where reading goes on behind what was read. A comment up to the end of its line may have taken
the carriage return in. -/
def Resumes (after more behind : List Char) : Prop :=
  behind = after ++ more ∨ (after = [] ∧ more = '\r' :: behind)

/-- The rest of a line has no line feed. -/
theorem notMem_restOfLine (cs : List Char) : '\n' ∉ (restOfLine cs).1 := by
  fun_induction restOfLine cs with
  | case4 c rest noFeed noReturn text after found ih =>
      rw [found] at ih
      exact List.mem_cons.not.mpr (not_or.mpr ⟨fun same => noFeed same.symm, ih⟩)
  | _ => exact List.not_mem_nil

/-- A character in front of a text that starts with no line feed. -/
theorem hasBareReturn_cons {text : List Char} (noFeed : '\n' ∉ text) (c : Char) :
    hasBareReturn (c :: text) = (c == '\r' || hasBareReturn text) := by
  rw [hasBareReturn]
  rintro rest - rfl
  exact noFeed List.mem_cons_self

/-- The rest of the last line goes on up to the end of the line that follows it. -/
theorem restOfLine_append {more : List Char} (ends : EndsLine more) (cs : List Char) :
    Resumes (restOfLine cs).2 more (restOfLine (cs ++ more)).2 ∧
      (hasBareReturn (restOfLine cs).1 = false →
        (restOfLine (cs ++ more)).1 = (restOfLine cs).1) := by
  fun_induction restOfLine cs with
  | case1 =>
      cases ends with
      | nothing => exact ⟨.inl rfl, fun _ => rfl⟩
      | feed rest => exact ⟨.inl rfl, fun _ => rfl⟩
      | carriageReturn rest => exact ⟨.inr ⟨rfl, rfl⟩, fun _ => rfl⟩
  | case2 rest => exact ⟨.inl rfl, fun _ => rfl⟩
  | case3 rest => exact ⟨.inl rfl, fun _ => rfl⟩
  | case4 c rest noFeed noReturn text after found ih =>
      have plain := notMem_restOfLine rest
      rw [found] at ih plain
      by_cases split : c = '\r' ∧ (rest ++ more).head? = some '\n'
      · -- The two halves of one line end: the line feed is the first character of what follows.
        obtain ⟨rfl, feed⟩ := split
        cases rest with
        | cons d rest =>
            obtain rfl : d = '\n' := Option.some.inj feed
            exact (noReturn rest rfl rfl).elim
        | nil =>
            cases found
            cases ends with
            | feed rest => exact ⟨.inl rfl, fun bare => by cases bare⟩
            | _ => cases feed
      · have step : restOfLine (c :: (rest ++ more)) =
            (c :: (restOfLine (rest ++ more)).1, (restOfLine (rest ++ more)).2) := by
          rw [restOfLine]
          · exact noFeed
          · rintro tail rfl same
            exact split ⟨rfl, by rw [same]; rfl⟩
        rw [List.cons_append, step]
        refine ⟨ih.1, fun bare => ?_⟩
        rw [hasBareReturn_cons plain, Bool.or_eq_false_iff] at bare
        rw [ih.2 bare.2]

/-- A documentation comment without a bare carriage return keeps its text. -/
theorem docComment?_keeps {cs more text after : List Char} {inner : Bool} (ends : EndsLine more)
    (found : docComment? cs = some (text, inner, after)) (bare : hasBareReturn text = false) :
    ∃ behind, docComment? (cs ++ more) = some (text, inner, behind) ∧
      Resumes after more behind := by
  have block (rest : List Char) (mark : Char) (inside : Bool)
      (read : (blockComment 0 (mark :: rest)).map (fun after =>
        ((readPart rest after).dropLast.dropLast, inside, after)) = some (text, inner, after)) :
      (blockComment 0 (mark :: (rest ++ more))).map (fun after =>
        ((readPart (rest ++ more) after).dropLast.dropLast, inside, after)) =
          some (text, inner, after ++ more) := by
    obtain ⟨behind, closed, same⟩ := Option.map_eq_some_iff.mp read
    cases same
    rw [← List.cons_append, blockComment_keeps 0 _ more after ends closed, Option.map_some,
      readPart_append]
  have line (rest : List Char) (inside : Bool)
      (read : some ((restOfLine rest).1, inside, (restOfLine rest).2) =
        some (text, inner, after)) :
      ∃ behind, some ((restOfLine (rest ++ more)).1, inside, (restOfLine (rest ++ more)).2) =
        some (text, inner, behind) ∧ Resumes after more behind := by
    cases read
    obtain ⟨resumes, same⟩ := restOfLine_append ends rest
    exact ⟨_, by rw [same bare], resumes⟩
  rw [docComment?.eq_def] at found
  split at found
  next rest => exact line rest true found
  next rest => exact ⟨_, block rest '!' true found, .inl rfl⟩
  next rest =>
    have next := ends.head?_append (c := '/') (by decide) (by decide) rest
    rw [List.cons_append, List.cons_append, List.cons_append, docComment?, next]
    split at found
    next => cases found
    next single =>
      rw [if_neg single]
      exact line rest false found
  next rest =>
    have star := ends.head?_append (c := '*') (by decide) (by decide) rest
    have slash := ends.head?_append (c := '/') (by decide) (by decide) rest
    rw [List.cons_append, List.cons_append, List.cons_append, docComment?, star, slash]
    split at found
    next => cases found
    next single =>
      rw [if_neg single]
      exact ⟨_, block rest '*' false found, .inl rfl⟩
  next => cases found

/-- Behind the start of a comment, what comes next tells whether it is documentation. -/
theorem docComment?_plain {mark c : Char} (bang : c ≠ '!') (same : c ≠ mark) (rest : List Char) :
    docComment? ('/' :: mark :: c :: rest) = none := by
  rw [docComment?.eq_def]
  split
  next starts => cases starts; exact absurd rfl bang
  next starts => cases starts; exact absurd rfl bang
  next starts => cases starts; exact absurd rfl same
  next starts => cases starts; exact absurd rfl same
  next => rfl

/-- A plain comment does not document. -/
theorem docComment?_eq_none_of_plainComment? {cs after : List Char}
    (found : plainComment? cs = some after) : docComment? cs = none := by
  rw [plainComment?.eq_def] at found
  split at found
  next => cases found
  next undocumented => simpa using undocumented

/-- A comment that is no documentation stays none, whatever follows its line. -/
theorem docComment?_append_eq_none {cs more after : List Char} (ends : EndsLine more)
    (found : plainComment? cs = some after) : docComment? (cs ++ more) = none := by
  have undocumented := docComment?_eq_none_of_plainComment? found
  rw [plainComment?.eq_def, undocumented] at found
  simp only [Option.isSome_none, Bool.false_eq_true, if_false] at found
  split at found
  next rest =>
    split at found
    next => cases found
    next bang =>
      cases rest with
      | nil => cases ends <;> rfl
      | cons c rest =>
          have bang : c ≠ '!' := by simpa using bang
          by_cases slash : c = '/'
          · subst slash
            have next := ends.head?_append (c := '/') (by decide) (by decide) rest
            rw [docComment?.eq_def] at undocumented ⊢
            simp only [List.cons_append, next] at undocumented ⊢
            split at undocumented
            next double => rw [if_pos double]
            next => cases undocumented
          · exact docComment?_plain bang slash (rest ++ more)
  next rest =>
    cases rest with
    | nil => cases ends <;> rfl
    | cons c rest =>
        by_cases bang : c = '!'
        · subst bang
          rw [docComment?, found] at undocumented
          cases undocumented
        by_cases star : c = '*'
        · subst star
          have star := ends.head?_append (c := '*') (by decide) (by decide) rest
          have slash := ends.head?_append (c := '/') (by decide) (by decide) rest
          rw [docComment?.eq_def] at undocumented ⊢
          simp only [List.cons_append, star, slash, found] at undocumented ⊢
          split at undocumented
          next closes => rw [if_pos closes]
          next => cases undocumented
        · exact docComment?_plain bang star (rest ++ more)
  next => cases found

/-- A plain comment is the same with other lines behind it. -/
theorem plainComment?_keeps {cs more after : List Char} (ends : EndsLine more)
    (found : plainComment? cs = some after) :
    ∃ behind, plainComment? (cs ++ more) = some behind ∧ Resumes after more behind := by
  have early := docComment?_eq_none_of_plainComment? found
  have late := docComment?_append_eq_none ends found
  rw [plainComment?.eq_def, early] at found
  rw [plainComment?.eq_def, late]
  simp only [Option.isSome_none, Bool.false_eq_true, if_false] at found ⊢
  split at found
  next rest =>
    have bang := ends.head?_append (c := '!') (by decide) (by decide) rest
    simp only [List.cons_append, bang]
    split at found
    next => cases found
    next plain =>
      cases found
      rw [if_neg plain]
      exact ⟨_, rfl, (restOfLine_append ends rest).1⟩
  next rest => exact ⟨_, blockComment_keeps 0 rest more after ends found, .inl rfl⟩
  next => cases found

/-- Where no comment begins, none is read. -/
theorem comment?_eq_none {cs : List Char} (other : startsComment cs = false) :
    plainComment? cs = none ∧ docComment? cs = none := by
  have undocumented : docComment? cs = none := by
    rw [docComment?.eq_def]
    split
    next => cases other
    next => cases other
    next => cases other
    next => cases other
    next => rfl
  refine ⟨?_, undocumented⟩
  rw [plainComment?.eq_def, undocumented]
  simp only [Option.isSome_none, Bool.false_eq_true, if_false]
  split
  next => cases other
  next => cases other
  next => rfl

/-- A comment that documents is not plain. -/
theorem plainComment?_eq_none_of_docComment? {cs : List Char}
    (found : (docComment? cs).isSome = true) : plainComment? cs = none := by
  rw [plainComment?.eq_def, if_pos found]

/-- A comment begins with a slash. -/
theorem head_of_startsComment {c : Char} {rest : List Char}
    (starts : startsComment (c :: rest) = true) : c = '/' := by
  rw [startsComment.eq_def] at starts
  split at starts
  next same => exact (List.cons.inj same).1
  next same => exact (List.cons.inj same).1
  next => cases starts

/-- The start of a comment that is not closed is no token. -/
theorem leaf?_eq_none_of_startsComment {c : Char} {rest : List Char}
    (starts : startsComment (c :: rest) = true) (line : Nat) : leaf? line (c :: rest) = none := by
  obtain rfl := head_of_startsComment starts
  exact leaf?_eq_none (by decide) (by decide) (by decide) (by simp [startsPunct, starts]) line

/-! ## Delimiters -/

/-- Whether a group is opened does not depend on the lines behind. -/
theorem opened?_append {more : List Char} (ends : EndsLine more) (c : Char) (rest : List Char) :
    opened? (c :: (rest ++ more)) = opened? (c :: rest) := by
  have marked : failureMark.isPrefixOf (c :: (rest ++ more)) = failureMark.isPrefixOf (c :: rest) :=
    ends.isPrefixOf_append (by decide) (by decide) (c :: rest)
  rw [opened?, opened?, marked]
  rfl

end Lexer

end VariantMerge
