import VariantMerge.Grammar.Item
import VariantMerge.Proofs.Grammar.ArgumentRuns
import VariantMerge.Proofs.Grammar.PlainConstants
import VariantMerge.Proofs.Token.Lexed

/-!
# Constants that are read back

The grammar of expressions reads plain constants back, phrase by phrase (`Token.IsPlainPart.isRead`): what
follows an operand shows that nothing else belongs to it, and the operator after it is found as what it is,
since no longer one goes on with the front of the next operand. So plain constants can stand for lengths
(`Token.IsPlainConstant.isConstant`), and literals between angle brackets.
-/

namespace VariantMerge

open VariantMerge.Parser

namespace Token

/-! ## What the grammar sees ahead -/

section Ahead

variable {next : Token} {rest : List Token}

/-- An operand without signs does not begin with a sign. -/
theorem startsOp_of_isCoreHead (head : next.isCoreHead = true) :
    ∀ text ∈ ["#", "&", "*", "!", "-", ".."], Shows (startsOp text) (next :: rest) false := by
  have real : ∀ text ∈ ["#", "&", "*", "!", "-", ".."],
      text.toList ≠ [] ∧ text.toList.head? ≠ "::".toList.head? := by decide
  intro text listed
  obtain ⟨some_, differs⟩ := real text listed
  cases next with
  | op sign =>
      obtain rfl : sign = "::" := beq_iff_eq.mp head
      exact startsOp_other (by decide) differs some_
  | openOp sign => cases head
  | _ => exact startsOp_other_token some_ rfl

/-- An operator is no word. -/
theorem startsWord_op {text word : String} (some_ : text.toList ≠ []) :
    Shows (startsWord word) (.op text :: rest) false := by
  obtain ⟨c, others, whole⟩ := List.exists_cons_of_ne_nil some_
  intro line
  rw [trees_op, whole]
  cases others <;> rfl

/-- No operator goes on with the front of an operand. -/
theorem startsChars_of_isOperandHead (head : next.isOperandHead = true) {c : Char} {more : List Char}
    (other : c ∉ [':', '-', '!']) : Shows (startsChars (c :: more)) (next :: rest) false := by
  intro line
  cases next with
  | word text =>
      rw [trees, treesOnto]
      cases more <;> split <;> rfl
  | group delimiter inner => cases more <;> rfl
  | lifetime name => cases head
  | openOp sign => cases head
  | op sign =>
      simp only [List.mem_cons, List.not_mem_nil, or_false, not_or] at other
      have listed : sign ∈ ["::", "-", "!"] := List.contains_iff_mem.mp head
      simp only [List.mem_cons, List.not_mem_nil, or_false] at listed
      rcases listed with rfl | rfl | rfl <;>
        cases more <;> simp [trees_op, opTrees, startsChars, other]

/-- An operand has a first token. -/
theorem isEmpty_of_isOperandHead (head : next.isOperandHead = true) :
    Shows List.isEmpty (next :: rest) false := by
  intro line
  cases next with
  | word text => rfl
  | group delimiter inner => rfl
  | lifetime name => cases head
  | openOp sign => cases head
  | op sign =>
      have listed : sign ∈ ["::", "-", "!"] := List.contains_iff_mem.mp head
      simp only [List.mem_cons, List.not_mem_nil, or_false] at listed
      rcases listed with rfl | rfl | rfl <;> rfl

/-- Whether an operator goes on after another one with a character that an operand can start with. -/
def takesHead (asked text : String) : Bool :=
  text.toList.isPrefixOf asked.toList &&
    (asked.toList.drop text.toList.length).head?.any [':', '-', '!'].contains

/-- An operator between two operands starts no other one. -/
theorem startsOp_between {asked text : String} (head : next.isOperandHead = true)
    (short : ¬ asked.toList <+: text.toList) (apart : takesHead asked text = false) :
    Shows (startsOp asked) (.op text :: next :: rest) false := by
  refine startsOp_past short fun c more whole => startsChars_of_isOperandHead head fun listed => ?_
  have starts : text.toList.isPrefixOf asked.toList = true :=
    List.isPrefixOf_iff_prefix.mpr ⟨c :: more, whole.symm⟩
  rw [takesHead, starts, whole, List.drop_left' rfl, List.head?_cons, Option.any_some,
    List.contains_iff_mem.mpr listed] at apart
  cases apart

/-- Trees that begin with an operator begin with each beginning of it. -/
theorem startsChars_prefix {line : Nat} {joint : Bool} {cs ds : List Char} {trees : List Tree}
    (before : cs <+: ds) : startsChars cs (opTrees line joint ds trees) = true := by
  induction ds generalizing cs with
  | nil =>
      obtain rfl := List.prefix_nil.mp before
      rfl
  | cons d ds ih =>
      cases cs with
      | nil => rfl
      | cons c cs =>
          obtain ⟨rfl, behind⟩ := List.cons_prefix_cons.mp before
          cases cs with
          | nil => cases ds <;> simp [opTrees, startsChars]
          | cons e cs =>
              obtain ⟨others, rfl⟩ := behind
              have rest := ih (List.prefix_append (e :: cs) others)
              simpa [opTrees, startsChars] using rest

/-- The operator between two operands is found as what it is. -/
theorem binaryOp?_arithmetic {text : String} (listed : text ∈ arithmeticOps)
    (head : next.isOperandHead = true) (line : Nat) :
    binaryOp? (trees line (.op text :: next :: rest)) = some text := by
  have arrow : ∀ text ∈ arithmeticOps,
      "=>".toList.head? ≠ text.toList.head? ∧ text.toList ≠ [] := by decide
  have told : ∀ text ∈ arithmeticOps, ∀ asked ∈ binaryOps, asked.toList <+: text.toList ∨
      takesHead asked text = false := by decide
  have found : ∀ text ∈ arithmeticOps,
      binaryOps.find? (fun asked => decide (asked.toList <+: text.toList)) = some text := by decide
  have same (asked : String) (among : asked ∈ binaryOps) :
      startsOp asked (trees line (.op text :: next :: rest)) =
        decide (asked.toList <+: text.toList) := by
    by_cases short : asked.toList <+: text.toList
    · rw [decide_eq_true short, startsOp, trees_op, startsChars_prefix short]
    · rw [decide_eq_false short]
      exact startsOp_between head short ((told text listed asked among).resolve_left short) line
  rw [binaryOp?, startsOp_other (arrow text listed).2 (arrow text listed).1 (by decide) line,
    if_neg Bool.false_ne_true, ← List.head?_filter, List.filter_congr same, List.head?_filter]
  exact found text listed

/-- What neither starts with punctuation of arithmetic nor with a conversion, nothing after an operand
starts with. -/
theorem EndsOperand.shows {condition : List Tree → Bool} (ends : EndsOperand rest)
    (nil : condition [] = false) (word : ∀ line trees, condition (.ident line "as" :: trees) = false)
    (punct : ∀ c ∈ ",+-*/%^&|<>".toList, ∀ line joint trees,
      condition (.punct line c joint :: trees) = false) : Shows condition rest false := by
  cases rest with
  | nil => exact fun _ => nil
  | cons next rest =>
      obtain rfl | ⟨text, listed, rfl⟩ := ends next rfl
      · exact shows_word (by decide) word
      · have told : ∀ text ∈ "," :: arithmeticOps, text.toList ≠ [] ∧
            text.toList.head?.any ",+-*/%^&|<>".toList.contains = true := by decide
        obtain ⟨some_, first⟩ := told text listed
        obtain ⟨c, others, whole⟩ := List.exists_cons_of_ne_nil some_
        rw [whole] at first
        intro line
        rw [trees_op, whole]
        have listed : c ∈ ",+-*/%^&|<>".toList := List.contains_iff_mem.mp first
        cases others <;> exact punct c listed _ _ _

/-- No postfix operator follows an operand that has ended. -/
theorem EndsOperand.suffix (ends : EndsOperand rest) : Shows startsSuffix rest false := by
  have told : ",+-*/%^&|<>".toList.all (fun c => c != '.' && c != '?') = true := by decide
  refine ends.shows rfl (fun _ _ => rfl) fun c listed line joint trees => ?_
  have other : c ≠ '.' ∧ c ≠ '?' := by simpa using List.all_eq_true.mp told c listed
  simp [startsSuffix, startsTrailer, startsOpNot, startsOp, startsChars, startsGroup, other.1.symm,
    other.2.symm]

/-- No sign that could go on with the operand follows. -/
theorem EndsOperand.op (ends : EndsOperand rest) :
    ∀ text ∈ ["::", "!", "#", ".."], Shows (startsOp text) rest false := by
  have real : ∀ text ∈ ["::", "!", "#", ".."], text.toList ≠ [] := by decide
  have differs : ∀ text ∈ ["::", "!", "#", ".."], ∀ next ∈ "," :: arithmeticOps,
      next.toList ≠ [] ∧ text.toList.head? ≠ next.toList.head? := by decide
  intro text asked
  cases rest with
  | nil => exact startsOp_nil (real text asked)
  | cons next rest =>
      obtain rfl | ⟨sign, listed, rfl⟩ := ends next rfl
      · exact startsOp_other_token (real text asked) rfl
      · obtain ⟨some_, other⟩ := differs text asked sign listed
        exact startsOp_other some_ other (real text asked)

/-- No braces follow. -/
theorem EndsOperand.brace (ends : EndsOperand rest) : Shows (startsGroup .brace) rest false :=
  ends.shows rfl (fun _ _ => rfl) fun _ _ _ _ _ => rfl

/-- A comma, or the end, ends an operand. -/
theorem EndsOperand.of_goesOn (ends : Runs.GoesOn "," [] rest) : EndsOperand rest := by
  obtain rfl | ⟨more, rfl⟩ := ends
  · rintro next ⟨⟩
  · rintro next ⟨rfl⟩
    exact .inr ⟨_, List.mem_cons_self, rfl⟩

/-- What ends an operand does so in front of anything that does. -/
theorem EndsOperand.append {tokens : List Token} (first : EndsOperand tokens)
    (last : EndsOperand rest) : EndsOperand (tokens ++ rest) := by
  cases tokens with
  | nil => exact last
  | cons token tokens => exact first

end Ahead

/-! ## Running the grammar of expressions -/

section Operands

variable {g : Grammar} {rest : List Token}

/-- A literal is read. -/
theorem literal_runs {text : String} (isLiteral : Lexer.IsLiteral text.toList) :
    Parser.literal.Runs (.word text :: rest) rest [.word text] := by
  obtain ⟨c, others, whole, kind⟩ := isLiteral_starts isLiteral
  have unsigned : c ≠ '-' := by
    rintro rfl
    rcases kind with free | quoted
    · exact free (by decide)
    · cases quoted
  have tokens : literalTokens text = [.word text] := by
    rw [literalTokens, whole]
    split
    next same => cases same; exact absurd rfl unsigned
    next => rfl
  intro line endLine leftOver
  refine ⟨line + text.toList.count '\n', bind_eq_ok_iff.mpr ⟨_, _, rfl, ?_⟩⟩
  rw [trees_literal (Lexer.WasLiteral.isName_eq_false isLiteral.1), ← tokens]
  rfl

/-- A truth value is read as a literal. -/
theorem truth_runs {text : String} (listed : text ∈ ["true", "false"]) :
    Parser.literal.Runs (.word text :: rest) rest [.word text] := by
  intro line endLine leftOver
  simp only [List.mem_cons, List.not_mem_nil, or_false] at listed
  rcases listed with rfl | rfl <;>
    exact ⟨line + 0, bind_eq_ok_iff.mpr ⟨_, _, rfl, rfl⟩⟩

/-- What begins like a literal is read as one. -/
theorem atom_of_literal {allowStruct : Bool} {tokens : List Token} {input : List Token}
    (starts : Shows startsLiteral input true) (literal : Parser.literal.Runs input rest tokens) :
    (atom g allowStruct).Runs input rest tokens :=
  .measured fun line => by rwa [if_pos (starts line)]


/-- There are as many trees as signs, at least. -/
theorem length_le_trees {texts : List String} (some_ : ∀ text ∈ texts, text.toList ≠ [])
    (rest : List Token) (line : Nat) :
    texts.length ≤ (trees line (texts.map .op ++ rest)).length := by
  induction texts with
  | nil => exact Nat.zero_le _
  | cons text texts ih =>
      have positive := List.length_pos_iff.mpr (some_ text List.mem_cons_self)
      have others := ih fun text listed => some_ text (List.mem_cons_of_mem _ listed)
      rw [List.map_cons, List.cons_append, trees_op, length_opTrees, List.length_cons]
      omega

/-- The signs of an operand. -/
theorem signs_runs {texts : List String} (signs_ : ∀ text ∈ texts, text ∈ ["-", "!"])
    (stops : ∀ text ∈ ["#", "&", "*", "!", "-"], Shows (startsOp text) rest false) :
    (signs g).Runs (texts.map .op ++ rest) rest (texts.map .op) := by
  have some_ (text : String) (listed : text ∈ texts) : text.toList ≠ [] := by
    have told : ∀ text ∈ ["-", "!"], text.toList ≠ [] := by decide
    exact told text (signs_ text listed)
  refine .through (texts.map fun text => [.op text]) rest (.measured fun line => ?_) ?_
  · have enough := Nat.lt_add_one_of_le (length_le_trees some_ rest line)
    generalize (trees line (texts.map Token.op ++ rest)).length + 1 = count at enough ⊢
    clear some_
    induction texts generalizing count with
    | nil =>
        obtain ⟨count, rfl⟩ := Nat.exists_eq_succ_of_ne_zero (Nat.ne_of_gt enough)
        refine .manyFrom_stop fun line => ?_
        exact List.any_eq_false.mpr fun text listed => Bool.eq_false_iff.mp (stops text listed line)
    | cons text texts ih =>
        obtain ⟨count, rfl⟩ := Nat.exists_eq_succ_of_ne_zero (Nat.ne_of_gt (Nat.lt_of_le_of_lt
          (Nat.zero_le _) enough))
        have others := ih (fun text listed => signs_ text (List.mem_cons_of_mem _ listed)) count
          (Nat.lt_of_succ_lt_succ enough)
        have sign := signs_ text List.mem_cons_self
        simp only [List.mem_cons, List.not_mem_nil, or_false] at sign
        refine .manyFrom_step (fun line => ?_) ?_ others
        · rcases sign with rfl | rfl <;> rfl
        · have absent {asked sign : String} (real : sign.toList ≠ [] ∧
              asked.toList.head? ≠ sign.toList.head? ∧ asked.toList ≠ []) :
              Shows (startsOp asked) (.op sign :: (texts.map Token.op ++ rest)) false :=
            startsOp_other real.1 real.2.1 real.2.2
          refine .look (absent ?_) (.skip_op? (absent ?_) (.skip_op? (absent ?_) ?_))
          iterate 3 rcases sign with rfl | rfl <;> decide
          rcases sign with rfl | rfl
          · exact .skip_op? (absent (by decide)) (.take_op (by decide) .pure)
          · exact .take_op? (by decide) .pure
  · rw [← List.flatMap_def, ← List.map_eq_flatMap]
    exact .pure

/-- A list with commas is read if each of its parts is. -/
theorem commaTokens_runs {part : Parser (List Token)} {parts : List (List Token)} {trailing : Bool}
    (each : ∀ tokens ∈ parts, ∀ rest, Runs.GoesOn "," [] rest →
      part.Runs (tokens ++ rest) rest tokens)
    (starts : ∀ tokens ∈ parts, ∃ next more, tokens = next :: more ∧ next.isOperandHead = true) :
    (commaTokens part).Runs (separated "," trailing parts) [] (separated "," trailing parts) := by
  cases parts with
  | nil => exact .bind (.measured fun _ => .look (fun _ => rfl) .pure) .pure
  | cons first others =>
      have list : (commaList part).Runs
          (separated "," trailing ((first :: others).map id) ++ []) [] (first :: others, trailing) := by
        refine .sepUntil (by decide) each (fun tokens listed rest => ?_) (fun _ _ => rfl)
          (fun _ => rfl) nofun
        obtain ⟨next, more, rfl, head⟩ := starts tokens listed
        exact isEmpty_of_isOperandHead head
      rw [List.map_id, List.append_nil] at list
      exact .bind list .pure

/-- Parentheses are read if what is inside is. -/
theorem atom_paren {allowStruct : Bool} {inner : List Token}
    (inside : (commaTokens (g.expr true)).Runs inner [] inner) :
    (atom g allowStruct).Runs (.group .paren inner :: rest) rest [.group .paren inner] :=
  .measured fun _ => .bind (.group inside) .pure

end Operands

section Paths

variable {depth : Nat} {rest : List Token} {p : Path} {allowStruct : Bool}

/-- The words of the grammar of expressions. -/
def exprWords : List String :=
  ["true", "false", "async", "move", "static", "for", "const", "if", "while", "loop", "match", "unsafe",
    "try", "return", "yield", "break", "continue", "let", "_", "become"]

/-- Names and path keywords are none of the words that begin other expressions. -/
theorem ne_exprWord {name : String}
    (kind : keywords.contains name = false ∨ name ∈ ["self", "Self", "super", "crate"]) :
    ∀ text ∈ exprWords, name ≠ text := by
  have told : ∀ text ∈ exprWords,
      keywords.contains text = true ∧ text ∉ ["self", "Self", "super", "crate"] := by decide
  rintro text listed rfl
  obtain ⟨keyword, free⟩ := told name listed
  rcases kind with other | listed
  · rw [keyword] at other
    cases other
  · exact free listed

/-- A word with which a path starts begins no other expression. -/
theorem atom_of_word {g : Grammar} {name : String} (named : isName name = true)
    (kind : keywords.contains name = false ∨ name ∈ ["self", "Self", "super", "crate"])
    {middle : List Token} {tokens : List Token}
    (written : Shows startsWritten (.word name :: middle) false)
    (path : (pathExpr g allowStruct).Runs (.word name :: middle) rest tokens) :
    (atom g allowStruct).Runs (.word name :: middle) rest tokens := by
  have other := ne_exprWord kind
  simp only [exprWords, List.forall_mem_cons] at other
  have absent (text : String) (listed : text ∈ exprWords) :
      Shows (startsWord text) (.word name :: middle) false :=
    shows_word named fun _ _ => beq_eq_false_iff_ne.mpr (ne_exprWord kind text listed)
  have literal : Shows startsLiteral (.word name :: middle) false :=
    shows_word named fun _ _ => by simp [startsLiteral, literal?, other]
  have async : Shows startsAsyncBlock (.word name :: middle) false :=
    shows_word named fun _ _ => by simp [startsAsyncBlock, startsWord, other]
  have closure : Shows startsClosure (.word name :: middle) false :=
    shows_word named fun _ _ => by simp [startsClosure, startsWord, startsOp, startsChars, other]
  have blockLike : Shows startsBlockLike (.word name :: middle) false :=
    shows_word named fun _ _ => by simp [startsBlockLike, startsWord, startsGroup, startsLifetime, other]
  have group (delimiter : Delimiter) : Shows (startsGroup delimiter) (.word name :: middle) false :=
    shows_word named fun _ _ => rfl
  have names : Shows startsPath (.word name :: middle) true :=
    shows_word named fun _ _ => by
      simp only [startsPath, startsName, startsPathKeyword, startsWord, Bool.or_eq_true]
      refine .inl (.inl (kind.imp (fun free => by rw [free]; rfl) fun listed => ?_))
      exact List.any_eq_true.mpr ⟨name, listed, beq_self_eq_true name⟩
  refine .measured fun line => ?_
  rw [literal line, async line, closure line, blockLike line, written line, group .paren line,
    group .bracket line]
  refine .skip_keyword? (absent _ (by decide)) (.skip_keyword? (absent _ (by decide))
    (.skip_keyword? (absent _ (by decide)) (.skip_keyword? (absent _ (by decide))
    (.skip_keyword? (absent _ (by decide)) (.skip_keyword? (absent _ (by decide)) ?_)))))
  rw [names line]
  exact path

/-- A path with which a type starts is an expression. -/
theorem atom_path {g : Grammar} (front : p.IsFront) {middle : List Token} {tokens : List Token}
    (mark : Shows (startsOp "#") middle false)
    (path : (pathExpr g allowStruct).Runs (p.tokens ++ middle) rest tokens) :
    (atom g allowStruct).Runs (p.tokens ++ middle) rest tokens ∧
      Shows startsWritten (p.tokens ++ middle) false := by
  have written : Shows startsWritten (p.tokens ++ middle) false := by
    intro line
    rw [startsWritten, front.no_builtin mark line, Bool.false_or]
    obtain ⟨more, whole⟩ | ⟨name, more, whole, named, kind, -⟩ := front.cases
    · rw [whole]
      rfl
    · have become : Shows (startsWord "become") (.word name :: (more ++ middle)) false :=
        shows_word named fun _ _ => beq_eq_false_iff_ne.mpr (ne_exprWord kind _ (by decide))
      rw [whole]
      exact become line
  refine ⟨?_, written⟩
  obtain ⟨more, whole⟩ | ⟨name, more, whole, named, kind, -⟩ := front.cases
  · rw [whole] at path ⊢
    exact .measured fun line => path
  · rw [whole] at path written ⊢
    exact atom_of_word named kind written path

/-- A path of names is read as an expression, where nothing goes on with it. -/
theorem pathExpr_runs (names : p.IsNames) (light : weights p.tokens ≤ depth + 1)
    (colons : Shows (startsOp "::") rest false) (bang : Shows (startsOp "!") rest false)
    (brace : Shows (startsGroup .brace) rest false) :
    (pathExpr (Grammar.upTo depth) allowStruct).Runs (p.tokens ++ rest) rest p.tokens := by
  refine .bind (names.isFront.qualifiedPath_runs (fun _ => names.fits) light ⟨nofun, colons⟩)
    (.look_false (fun line => ?_) ?_)
  · rw [startsOpNot, bang line, Bool.false_and]
  · rw [Bool.and_false]
    refine .no (.look brace ?_)
    rw [Bool.and_false]
    exact .pure

end Paths

section Rows

variable {depth : Nat} {tokens rest : List Token}

/-- What the grammar of expressions does with a phrase of a plain constant. -/
def ConstPart.IsRead (tokens : List Token) : ConstPart → Prop
  | .core => ∀ depth rest, weights tokens ≤ depth + 1 → EndsOperand rest →
    Shows startsWritten (tokens ++ rest) false ∧ ∃ front after, tokens = front ++ after ∧
      (atom (Grammar.upTo depth) true).Runs (front ++ (after ++ rest)) (after ++ rest) front ∧
      (trailers (Grammar.upTo depth)).Runs (after ++ rest) rest after
  | .operand => ∀ depth rest, weights tokens ≤ depth + 1 → EndsOperand rest →
    (Parser.operand (Grammar.upTo depth) true).Runs (tokens ++ rest) rest (tokens, false)
  | .tail _ => ∀ depth rest line count, weights tokens ≤ depth → Runs.GoesOn "," [] rest →
    (trees line (tokens ++ rest)).length < count →
    (operandsFrom (Grammar.upTo depth) .assignment true false count).Runs (tokens ++ rest) rest
      (tokens, false)
  | .whole => ∀ depth rest, weights tokens ≤ depth → Runs.GoesOn "," [] rest →
    ((Grammar.upTo depth).expr true).Runs (tokens ++ rest) rest tokens

/-- No postfix operator is read where the operand has ended. -/
theorem trailers_none {g : Grammar} (ends : EndsOperand rest) : (trailers g).Runs rest rest [] :=
  .bind (.many_none ends.suffix) .pure

/-- An operand without signs is read if it is an atom that nothing goes on with. -/
theorem ConstPart.IsRead.of_atom
    (written : ∀ rest, EndsOperand rest → Shows startsWritten (tokens ++ rest) false)
    (reads : ∀ depth rest, weights tokens ≤ depth + 1 → EndsOperand rest →
      (atom (Grammar.upTo depth) true).Runs (tokens ++ rest) rest tokens) : ConstPart.core.IsRead tokens :=
  fun depth rest light ends => ⟨written rest ends, tokens, [], (List.append_nil _).symm,
    reads depth rest light ends, trailers_none ends⟩

/-- The arguments of a call are read behind what is called. -/
theorem trailers_call {inner : List Token}
    (inside : (commaTokens ((Grammar.upTo depth).expr true)).Runs inner [] inner) (ends : EndsOperand rest) :
    (trailers (Grammar.upTo depth)).Runs (.group .paren inner :: rest) rest [.group .paren inner] := by
  refine .through [[.group .paren inner]] rest (.measured fun line => ?_) .pure
  rw [trees, treesOnto, List.length_cons]
  refine .manyFrom_step (fun _ => rfl) (.measured fun _ => .bind (.group inside) .pure) ?_
  exact .manyFrom_stop ends.suffix

/-- What is inside parentheses is read one level deeper. -/
theorem inside_runs {parts : List (List Token)} (trailing : Bool)
    (plain : ∀ part ∈ parts, IsPlainPart .whole part)
    (each : ∀ part ∈ parts, ConstPart.whole.IsRead part)
    (light : weights (separated "," trailing parts) ≤ depth) :
    (commaTokens ((Grammar.upTo depth).expr true)).Runs (separated "," trailing parts) []
      (separated "," trailing parts) :=
  commaTokens_runs (fun part listed rest ends => each part listed depth rest
    ((weights_le_separated listed).trans light) ends) fun part listed => (plain part listed).head

/-- Literals are read. -/
theorem literal_isRead {text : String} (isLiteral : Lexer.IsLiteral text.toList) :
    ConstPart.core.IsRead [.word text] := by
  have unnamed := Lexer.WasLiteral.isName_eq_false isLiteral.1
  refine .of_atom (fun rest _ line => ?_) fun depth rest _ _ =>
    atom_of_literal (fun line => ?_) (literal_runs isLiteral)
  · rw [List.singleton_append, trees_literal unnamed]
    rfl
  · rw [List.singleton_append, trees_literal unnamed]
    rfl

/-- Truth values are read. -/
theorem truth_isRead {text : String} (listed : text ∈ ["true", "false"]) :
    ConstPart.core.IsRead [.word text] := by
  have shows (rest : List Token) : Shows startsWritten (.word text :: rest) false ∧
      Shows startsLiteral (.word text :: rest) true := by
    simp only [List.mem_cons, List.not_mem_nil, or_false] at listed
    rcases listed with rfl | rfl <;> exact ⟨fun _ => rfl, fun _ => rfl⟩
  exact .of_atom (fun rest _ => (shows rest).1) fun depth rest _ _ =>
    atom_of_literal (shows rest).2 (truth_runs listed)

/-- Paths of names are read. -/
theorem path_isRead {p : Path} (names : p.IsNames) : ConstPart.core.IsRead p.tokens := by
  intro depth rest light ends
  have path : (pathExpr (Grammar.upTo depth) true).Runs (p.tokens ++ rest) rest p.tokens :=
    pathExpr_runs names light (ends.op "::" (by decide)) (ends.op "!" (by decide)) ends.brace
  obtain ⟨atom_, written⟩ := atom_path names.isFront (ends.op "#" (by decide)) path
  exact ⟨written, p.tokens, [], (List.append_nil _).symm, atom_, trailers_none ends⟩

/-- Calls are read if their arguments are. -/
theorem call_isRead {p : Path} {parts : List (List Token)} (trailing : Bool) (names : p.IsNames)
    (plain : ∀ part ∈ parts, IsPlainPart .whole part)
    (each : ∀ part ∈ parts, ConstPart.whole.IsRead part) :
    ConstPart.core.IsRead (p.tokens ++ [.group .paren (separated "," trailing parts)]) := by
  intro depth rest light ends
  simp only [weights_append, weights, weight] at light
  have inside := inside_runs trailing plain each (show _ ≤ depth by omega)
  generalize separated "," trailing parts = inner at light inside
  have other (text : String) (some_ : text.toList ≠ []) :
      Shows (startsOp text) (.group .paren inner :: rest) false := startsOp_other_token some_ rfl
  have path : (pathExpr (Grammar.upTo depth) true).Runs (p.tokens ++ .group .paren inner :: rest)
      (.group .paren inner :: rest) p.tokens :=
    pathExpr_runs names (by omega) (other "::" (by decide)) (other "!" (by decide)) fun _ => rfl
  obtain ⟨atom_, written⟩ := atom_path names.isFront (other "#" (by decide)) path
  refine ⟨?_, p.tokens, [.group .paren inner], rfl, atom_, trailers_call inside ends⟩
  rwa [List.append_assoc]

/-- Parentheses are read if what is inside is. -/
theorem paren_isRead {parts : List (List Token)} (trailing : Bool)
    (plain : ∀ part ∈ parts, IsPlainPart .whole part)
    (each : ∀ part ∈ parts, ConstPart.whole.IsRead part) :
    ConstPart.core.IsRead [.group .paren (separated "," trailing parts)] := by
  refine .of_atom (fun _ _ _ => rfl) fun depth rest light _ => ?_
  simp only [weights, weight] at light
  exact atom_paren (inside_runs trailing plain each (by omega))

/-- Signs before an operand are read, by induction on their number. -/
theorem operand_isRead {texts : List String} {core : List Token}
    (signs_ : ∀ text ∈ texts, text ∈ ["-", "!"]) (plain : IsPlainPart .core core)
    (read : ConstPart.core.IsRead core) : ConstPart.operand.IsRead (texts.map .op ++ core) := by
  intro depth rest light ends
  rw [weights_append] at light
  obtain ⟨written, front, after, whole, atom_, trailers_⟩ := read depth rest (by omega) ends
  obtain ⟨next, more, starts, head⟩ := plain.head
  have stops : ∀ text ∈ ["#", "&", "*", "!", "-", ".."], Shows (startsOp text) (core ++ rest) false := by
    rw [starts]
    exact startsOp_of_isCoreHead head
  rw [List.append_assoc]
  refine .bind (signs_runs signs_ fun text listed =>
    stops text (List.mem_append_left [".."] listed)) (.get_trees fun line endLine leftOver => ?_)
  rw [stops ".." (by decide) line, written line, if_neg Bool.false_ne_true]
  subst whole
  rw [List.append_assoc]
  refine .bind atom_ (.bind trailers_ (.no ?_))
  rw [List.append_assoc]
  exact .pure

/-- A row of operands may end. -/
theorem last_isRead {converted : Bool} : (ConstPart.tail converted).IsRead [] := by
  intro depth rest line count _ ends enough
  obtain ⟨count, rfl⟩ := Nat.exists_eq_succ_of_ne_zero (Nat.ne_of_gt (Nat.lt_of_le_of_lt
    (Nat.zero_le _) enough))
  have operand := EndsOperand.of_goesOn ends
  refine .measured fun line => .skip_keyword? ?_ ?_
  · rcases ends with rfl | ⟨more, rfl⟩ <;> exact fun _ => rfl
  · have nothing : binaryOp? (trees line rest) = none := by
      rcases ends with rfl | ⟨more, rfl⟩ <;> rfl
    refine .no ?_
    rw [List.nil_append, operand.op ".." (by decide) line, nothing]
    exact .pure

/-- A row of operands goes on with an operator and an operand. -/
theorem operator_isRead {converted : Bool} {text : String} {operand_ tail : List Token}
    (listed : text ∈ arithmeticOps) (plain : IsPlainPart .operand operand_)
    (plainTail : IsPlainPart (.tail false) tail)
    (read : ConstPart.operand.IsRead operand_) (readTail : (ConstPart.tail false).IsRead tail) :
    (ConstPart.tail converted).IsRead (.op text :: (operand_ ++ tail)) := by
  intro depth rest line count light ends enough
  obtain ⟨count, rfl⟩ := Nat.exists_eq_succ_of_ne_zero (Nat.ne_of_gt (Nat.lt_of_le_of_lt
    (Nat.zero_le _) enough))
  have told : ∀ text ∈ arithmeticOps, text.toList ≠ [] ∧ "..".toList.head? ≠ text.toList.head? ∧
      Binding.ofOperator text = .arithmetic := by decide
  obtain ⟨some_, other, binding⟩ := told text listed
  obtain ⟨next, more, starts, head⟩ := plain.starts
  simp only [weights, weights_append, weight] at light
  obtain ⟨after, shorter⟩ := length_trees_append operand_ (tail ++ rest) line
  have positive := List.length_pos_iff.mpr some_
  rw [List.cons_append, List.append_assoc] at enough ⊢
  rw [trees_op, length_opTrees] at enough
  have others := readTail depth rest after count (by omega) ends (by omega)
  have one := read depth (tail ++ rest) (by omega) (plainTail.ends.append (.of_goesOn ends))
  refine .measured fun line => .skip_keyword? (startsWord_op some_) (.no ?_)
  rw [startsOp_other some_ other (by decide) line, starts, List.cons_append,
    binaryOp?_arithmetic listed head line, if_neg Bool.false_ne_true]
  dsimp only
  rw [binding, if_neg (by decide), if_neg (by decide), ← List.cons_append, ← starts]
  exact .take_op some_ (.bind one (.no (.bind others .pure)))

/-- What follows a conversion goes on with no type. -/
theorem endsType_of_tail {tail : List Token} (plain : IsPlainPart (.tail true) tail)
    (ends : Runs.GoesOn "," [] rest) : EndsType false false (tail ++ rest) := by
  cases plain with
  | last =>
      obtain rfl | ⟨more, rfl⟩ := ends
      · exact .nil
      · exact .sign (by decide)
  | conversion => exact .interface
  | @operator _ text operand_ tail listed notShift operand_ tail_ =>
      have told : ∀ text ∈ arithmeticOps, text ≠ "<<" → text.toList ≠ [] ∧
          ∀ asked ∈ ["<", "::", "!", "->", "#"], ¬ asked.toList <+: text.toList ∧
            takesHead asked text = false := by decide
      obtain ⟨some_, other⟩ := told text listed (notShift rfl)
      obtain ⟨next, more, rfl, head⟩ := operand_.starts
      refine ⟨fun asked query => startsOp_between head (other asked query).1 (other asked query).2,
        ?_, nofun, nofun⟩
      obtain ⟨c, others, whole⟩ := List.exists_cons_of_ne_nil some_
      intro line
      rw [List.cons_append, trees_op, whole]
      cases others <;> rfl

/-- A row of operands goes on with a conversion to a type that is a name. -/
theorem conversion_isRead {converted : Bool} {name : String} {tail : List Token}
    (named : isName name = true) (free : keywords.contains name = false)
    (plain : IsPlainPart (.tail true) tail) (read : (ConstPart.tail true).IsRead tail) :
    (ConstPart.tail converted).IsRead (.word "as" :: .word name :: tail) := by
  intro depth rest line count light ends enough
  obtain ⟨count, rfl⟩ := Nat.exists_eq_succ_of_ne_zero (Nat.ne_of_gt (Nat.lt_of_le_of_lt
    (Nat.zero_le _) enough))
  have names : Path.IsNames ⟨false, [.mk name .none]⟩ :=
    ⟨nofun, rfl, List.forall_mem_singleton.mpr ⟨named, .inl free⟩⟩
  have type : (Ty.path ⟨false, [.mk name .none]⟩).ReadsBack false := Ty.path_readsBack names.isFront
  simp only [weights, weight] at light
  rw [List.cons_append, List.cons_append] at enough ⊢
  have shorter : (trees (line + (Token.word "as").feeds + (Token.word name).feeds) (tail ++ rest)).length <
      count := by
    rw [trees_name (by decide), trees_name named] at enough
    exact Nat.lt_of_succ_lt_succ (Nat.lt_of_succ_lt enough)
  have others := read depth rest _ count (by omega) ends shorter
  have lighter : weights (Ty.path ⟨false, [.mk name .none]⟩).tokens ≤ depth := by
    change 1 + 0 ≤ depth
    omega
  have target := type.inner lighter (endsType_of_tail plain ends)
  refine .measured fun line => .take_keyword? (by decide) (.bind target ?_)
  exact .look (plain.ends.append (.of_goesOn ends)).suffix (.no (.bind others .pure))

/-- A row of operands is read if its operands and operators are. -/
theorem row_isRead {operand_ tail : List Token} (plain : IsPlainPart .operand operand_)
    (plainTail : IsPlainPart (.tail false) tail) (read : ConstPart.operand.IsRead operand_)
    (readTail : (ConstPart.tail false).IsRead tail) : ConstPart.whole.IsRead (operand_ ++ tail) := by
  intro depth rest light ends
  rw [weights_append] at light
  obtain ⟨next, more, starts, -⟩ := plain.starts
  have some_ : 0 < weights operand_ := weights_pos (by rw [starts]; exact List.cons_ne_nil _ _)
  obtain ⟨depth, rfl⟩ := Nat.exists_eq_succ_of_ne_zero (Nat.ne_of_gt (show 0 < depth by omega))
  have one := read depth (tail ++ rest) (by omega) (plainTail.ends.append (.of_goesOn ends))
  rw [List.append_assoc]
  exact .bind one (.no (.through (tail, false) rest (.measured fun line =>
    readTail depth rest line _ (by omega) ends (Nat.lt_succ_self _)) .pure))

/-- **Plain constants are read back.** -/
theorem IsPlainPart.isRead {kind : ConstPart} (plain : IsPlainPart kind tokens) : kind.IsRead tokens := by
  induction plain with
  | literal isLiteral => exact literal_isRead isLiteral
  | truth listed => exact truth_isRead listed
  | path names => exact path_isRead names
  | @call p parts trailing names plain ih => exact call_isRead trailing names plain ih
  | @paren parts trailing plain ih => exact paren_isRead trailing plain ih
  | signed signs_ core_ ih => exact operand_isRead signs_ core_ ih
  | last => exact last_isRead
  | operator listed notShift operand_ tail_ ih ihTail =>
      exact operator_isRead listed operand_ tail_ ih ihTail
  | conversion named free tail_ ih => exact conversion_isRead named free tail_ ih
  | row operand_ tail_ ih ihTail => exact row_isRead operand_ tail_ ih ihTail

end Rows

/-- A plain constant can stand alone. -/
theorem IsPlainConstant.isConstant {value : List Token} (plain : IsPlainConstant value) :
    IsConstant value where
  legible := plain.legible
  runs := fun depth light => by
    have runs := plain.isRead depth [] light (.inl rfl)
    rwa [List.append_nil] at runs

/-! ## Literals between angle brackets -/

namespace IsConstArgument

/-- A literal is an argument by itself. -/
theorem of_literal {text : String} (isLiteral : Lexer.IsLiteral text.toList) :
    IsConstArgument [.word text] := by
  have unnamed := Lexer.WasLiteral.isName_eq_false isLiteral.1
  have real : ∀ text ∈ [">", "=", "<="], text.toList ≠ [] := by decide
  have starts (rest : List Token) : Shows startsLiteral ([.word text] ++ rest) true := fun line => by
    rw [List.singleton_append, trees_literal unnamed]
    rfl
  refine ⟨fun asked listed rest => startsOp_other_token (real asked listed) rfl,
    fun rest line => Bool.or_eq_true_iff.mpr (.inl (starts rest line)), fun rest line => ?_,
    .single (.inr isLiteral), fun depth rest _ =>
      .look_true (starts rest) (literal_runs isLiteral)⟩
  rw [List.singleton_append, trees_literal unnamed]
  rfl

end IsConstArgument

end Token

end VariantMerge
