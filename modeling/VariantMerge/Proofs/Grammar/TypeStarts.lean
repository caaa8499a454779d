import VariantMerge.Grammar.Signature
import VariantMerge.Proofs.Grammar.Runs

/-!
# Where written types start and end

A parser decides by the trees ahead what it reads next. `Token.startsType` says of tokens that they
start like a type, and `Token.EndsType` that nothing in them goes on with the type before them; what the
grammar asks at these places follows from either.
-/

namespace VariantMerge

/-- Whether the token is an operator. -/
def Token.isOp : Token → Bool
  | op _ | openOp _ => true
  | _ => false

namespace Parser

variable {tokens : List Token} {text : String}

/-! ## Words and operators -/

/-- What a condition says about a word. -/
theorem shows_word {condition : List Tree → Bool} {found : Bool} (named : Token.isName text = true)
    (holds : ∀ line trees, condition (.ident line text :: trees) = found) :
    Shows condition (.word text :: tokens) found :=
  fun line => by rw [Token.trees_name named]; exact holds _ _

/-- The operator ahead starts with another character. -/
theorem startsOp_other {operator : String} (some_ : text.toList ≠ [])
    (other : operator.toList.head? ≠ text.toList.head?) (real : operator.toList ≠ []) :
    Shows (startsOp operator) (.op text :: tokens) false := by
  intro line
  obtain ⟨c, rest, whole⟩ := List.exists_cons_of_ne_nil some_
  obtain ⟨d, others, real⟩ := List.exists_cons_of_ne_nil real
  have differs : (d == c) = false := by simpa [whole, real] using other
  rw [startsOp, Token.trees_op, whole, real]
  cases rest with
  | nil => cases others <;> simp [Token.opTrees, startsChars, differs]
  | cons e rest => cases others <;> simp [Token.opTrees, startsChars, differs]

/-- What is no operator starts with none. -/
theorem startsOp_other_token {operator : String} (real : operator.toList ≠ []) {token : Token}
    (other : token.isOp = false) : Shows (startsOp operator) (token :: tokens) false := by
  intro line
  obtain ⟨d, others, real⟩ := List.exists_cons_of_ne_nil real
  rw [startsOp, real]
  cases token with
  | op text | openOp text => cases other
  | word text =>
      rw [Token.trees, Token.treesOnto]
      cases others <;> split <;> rfl
  | lifetime name => cases others <;> rfl
  | group delimiter inner => cases others <;> rfl

theorem startsOp_nil {operator : String} (real : operator.toList ≠ []) :
    Shows (startsOp operator) [] false := by
  intro line
  obtain ⟨d, others, real⟩ := List.exists_cons_of_ne_nil real
  rw [startsOp, real]
  cases others <;> rfl

/-- No operator starts with one character and goes on with another one that is written apart. -/
theorem startsOp_of_single {c : Char} {operator : String} (text : String) (others : List Char)
    (single : text.toList = [c])
    (whole : operator.toList = c :: others)
    (rest : Shows (startsChars others) tokens false) :
    Shows (startsOp operator) (.op text :: tokens) false := by
  intro line
  rw [startsOp, Token.trees_op, whole, single, Token.opTrees]
  cases others with
  | nil => exact absurd (rest line) (by simp [startsChars])
  | cons d others => simp [startsChars, rest line]

theorem startsChars_past {line : Nat} {joint : Bool} {cs ds : List Char} {trees : List Tree}
    (short : ¬ cs <+: ds) (past : ∀ c more, cs = ds ++ c :: more → startsChars (c :: more) trees = false) :
    startsChars cs (Token.opTrees line joint ds trees) = false := by
  induction ds generalizing cs with
  | nil =>
      cases cs with
      | nil => exact absurd List.nil_prefix short
      | cons c cs => exact past c cs rfl
  | cons d ds ih =>
      cases cs with
      | nil => exact absurd List.nil_prefix short
      | cons c cs =>
          by_cases same : c = d
          · subst same
            cases cs with
            | nil => exact absurd ⟨ds, rfl⟩ short
            | cons e cs =>
                have shorter : ¬ e :: cs <+: ds := fun before =>
                  short (List.cons_prefix_cons.mpr ⟨rfl, before⟩)
                have rest := ih shorter fun a more whole => past a more (congrArg _ whole)
                cases ds with
                | nil =>
                    rw [Token.opTrees] at rest
                    simp [Token.opTrees, startsChars, rest]
                | cons d ds => simp [Token.opTrees, startsChars, rest]
          · cases ds <;> cases cs <;> simp [Token.opTrees, startsChars, same]

/-- An operator that goes on after the one ahead, with something else than what comes next. -/
theorem startsOp_past {operator : String} (short : ¬ operator.toList <+: text.toList)
    (past : ∀ c more, operator.toList = text.toList ++ c :: more →
      Shows (startsChars (c :: more)) tokens false) :
    Shows (startsOp operator) (.op text :: tokens) false :=
  fun line => startsChars_past short fun c more whole => past c more whole line

theorem startsLiteral_op (some_ : text.toList ≠ []) (unsigned : text.toList.head? ≠ some '-') :
    Shows startsLiteral (.op text :: tokens) false := by
  intro line
  obtain ⟨c, rest, whole⟩ := List.exists_cons_of_ne_nil some_
  have other : (c == '-') = false := by simpa [whole] using unsigned
  have plain (joint : Bool) (trees : List Tree) :
      startsLiteral (.punct line c joint :: trees) = false := by
    rw [startsLiteral]
    cases trees with
    | nil => rfl
    | cons tree trees => cases tree <;> simp [literal?, other]
  rw [Token.trees_op, whole]
  cases rest with
  | nil => exact plain _ _
  | cons d rest => exact plain _ _

end Parser

namespace Token

/-- Whether tokens start like a type. A lifetime is the first of several bounds. -/
def startsType : List Token → Bool
  | .word text :: _ =>
    isName text && (!Parser.keywords.contains text || ["self", "Self", "super", "crate", "fn",
      "unsafe", "extern", "dyn", "impl", "_", "for"].contains text)
  | .lifetime _ :: .op "+" :: _ => true
  | .op "<" :: rest => startsType rest
  | .op text :: _ => ["::", "*", "&", "!"].contains text
  | .group delimiter _ :: _ => delimiter != .brace
  | _ => false

/-- What the grammar sees where a type starts. -/
structure TypeStart (tokens : List Token) : Prop where
  op : ∀ text ∈ [",", ";", ">", "=", "?", "+", "#", "...", "->", "<=", "<<=", "-"],
    Parser.Shows (Parser.startsOp text) tokens false
  word : ∀ text ∈ ["const", "mut", "use", "as"], Parser.Shows (Parser.startsWord text) tokens false
  literal : Parser.Shows Parser.startsLiteral tokens false
  brace : Parser.Shows (Parser.startsGroup .brace) tokens false
  lifetime : Parser.Shows
    (fun trees => Parser.startsLifetime trees && !Parser.startsOp "+" (trees.drop 1)) tokens false
  some_ : Parser.Shows List.isEmpty tokens false

namespace TypeStart

variable {rest : List Token}

/-- The operators that no type starts with are not empty. -/
theorem operator_ne_nil : ∀ text ∈ [",", ";", ">", "=", "?", "+", "#", "...", "->", "<=", "<<=", "-"],
    text.toList ≠ [] := by
  decide

/-- A word that starts a type is none of the keywords that start something else. -/
theorem word_ne {text word : String}
    (allowed : (!Parser.keywords.contains text || ["self", "Self", "super", "crate", "fn",
      "unsafe", "extern", "dyn", "impl", "_", "for"].contains text) = true)
    (listed : word ∈ ["const", "mut", "use", "as", "true", "false"]) : (text == word) = false := by
  have told : ["const", "mut", "use", "as", "true", "false"].all (fun word =>
      !(!Parser.keywords.contains word || ["self", "Self", "super", "crate", "fn", "unsafe",
        "extern", "dyn", "impl", "_", "for"].contains word)) = true := by decide
  refine beq_eq_false_iff_ne.mpr ?_
  rintro rfl
  have here := List.all_eq_true.mp told _ listed
  rw [allowed] at here
  cases here

theorem of_word {text : String} (starts : startsType (.word text :: rest) = true) :
    TypeStart (.word text :: rest) := by
  obtain ⟨named, allowed⟩ := Bool.and_eq_true_iff.mp starts
  refine ⟨fun text listed => Parser.startsOp_other_token (operator_ne_nil text listed) rfl,
    fun word listed line => ?_, fun line => ?_, fun line => ?_, fun line => ?_, fun line => ?_⟩
  all_goals rw [trees_name named]
  · exact word_ne allowed (List.mem_append_left ["true", "false"] listed)
  · rw [Parser.startsLiteral, Parser.literal?, word_ne allowed (by decide : "true" ∈ _),
      word_ne allowed (by decide : "false" ∈ _)]
    rfl
  all_goals rfl

theorem of_lifetime (name : String) (rest : List Token) :
    TypeStart (.lifetime name :: .op "+" :: rest) := by
  refine ⟨fun text listed => Parser.startsOp_other_token (operator_ne_nil text listed) rfl,
    fun _ _ _ => rfl, fun _ => rfl, fun _ => rfl, fun line => ?_, fun _ => rfl⟩
  have plus : Parser.startsOp "+" (trees line (.op "+" :: rest)) = true :=
    Parser.startsOp_self (by decide) line
  rw [Bool.and_eq_false_iff]
  exact .inr (congrArg (!·) plus)

/-- An angle bracket starts a type if a type comes after it: it is then no part of a longer operator. -/
theorem of_angle (inner : TypeStart rest) : TypeStart (.op "<" :: rest) := by
  have equal (line : Nat) : Parser.startsChars ['='] (trees line rest) = false :=
    inner.op "=" (by decide) line
  refine ⟨fun text listed => ?_, fun _ _ _ => rfl, fun line => ?_, fun _ => rfl, fun _ => rfl,
    fun _ => rfl⟩
  · simp only [List.mem_cons, List.not_mem_nil, or_false] at listed
    rcases listed with rfl | rfl | rfl | rfl | rfl | rfl | rfl | rfl | rfl | rfl | rfl | rfl
    case inr.inr.inr.inr.inr.inr.inr.inr.inr.inl =>
      exact Parser.startsOp_of_single _ ['='] rfl rfl equal
    case inr.inr.inr.inr.inr.inr.inr.inr.inr.inr.inl =>
      exact Parser.startsOp_of_single _ ['<', '='] rfl rfl
        (inner.op "<=" (by decide))
    all_goals exact Parser.startsOp_other (by decide) (by decide) (by decide)
  · exact Parser.startsLiteral_op (by decide) (by decide) line

theorem of_op {text : String} (listed : text ∈ ["::", "*", "&", "!"]) (rest : List Token) :
    TypeStart (.op text :: rest) := by
  have some_ : ∀ text ∈ ["::", "*", "&", "!"], text.toList ≠ [] ∧
      text.toList.head? ≠ some '-' ∧ ∀ operator ∈ [",", ";", ">", "=", "?", "+", "#", "...",
        "->", "<=", "<<=", "-"], operator.toList.head? ≠ text.toList.head? := by decide
  obtain ⟨some_, unsigned, differs⟩ := some_ text listed
  refine ⟨fun operator asked => Parser.startsOp_other some_ (differs operator asked)
    (operator_ne_nil operator asked), fun _ _ _ => ?_, Parser.startsLiteral_op some_ unsigned,
    fun _ => ?_, fun _ => ?_, fun _ => ?_⟩
  all_goals
    rw [trees_op]
    simp only [List.mem_cons, List.not_mem_nil, or_false] at listed
    rcases listed with rfl | rfl | rfl | rfl <;> rfl

theorem of_group {delimiter : Delimiter} (other : (delimiter != .brace) = true)
    (inner rest : List Token) : TypeStart (.group delimiter inner :: rest) := by
  refine ⟨fun text listed => Parser.startsOp_other_token (operator_ne_nil text listed) rfl,
    fun _ _ _ => rfl, fun _ => rfl, fun line => ?_, fun _ => rfl, fun _ => rfl⟩
  simpa [Parser.startsGroup, trees, treesOnto] using other

end TypeStart

/-- The grammar sees a type where tokens start like one. -/
theorem typeStart {tokens : List Token} (starts : startsType tokens = true) : TypeStart tokens := by
  fun_induction startsType tokens with
  | case1 text rest => exact .of_word starts
  | case2 name rest => exact .of_lifetime name rest
  | case3 rest ih => exact .of_angle (ih starts)
  | case4 text rest other => exact .of_op (List.contains_iff_mem.mp starts) rest
  | case5 delimiter inner rest => exact .of_group starts inner rest
  | case6 => cases starts

/-- Nothing in these tokens goes on with the type before them, which ends in a plus sign if it
`trails`. -/
structure EndsType (plus trails : Bool) (tokens : List Token) : Prop where
  op : ∀ text ∈ ["<", "::", "!", "->", "#"], Parser.Shows (Parser.startsOp text) tokens false
  paren : Parser.Shows (Parser.startsGroup .paren) tokens false
  plus : plus = true → Parser.Shows (Parser.startsOp "+") tokens false
  bound : trails = true → Parser.Shows (Parser.startsBound .implTrait) tokens false

namespace EndsType

variable {plus trails : Bool} {tokens : List Token}

theorem nil : EndsType plus trails [] where
  op := fun text listed => by
    have real : ∀ text ∈ ["<", "::", "!", "->", "#"], text.toList ≠ [] := by decide
    exact Parser.startsOp_nil (real text listed)
  paren := fun _ => rfl
  plus := fun _ _ => rfl
  bound := fun _ _ => rfl

/-- Less is asked of what follows a part that no plus sign goes on with. -/
theorem weaken (ends : EndsType plus trails tokens) : EndsType false false tokens :=
  ⟨ends.op, ends.paren, nofun, nofun⟩

/-- What stands between types or after the last one. -/
theorem sign {text : String} (listed : text ∈ [",", ";", ">", "=", ":"]) :
    EndsType plus trails (.op text :: tokens) where
  op := fun asked query => by
    simp only [List.mem_cons, List.not_mem_nil, or_false] at listed query
    rcases listed with rfl | rfl | rfl | rfl | rfl <;>
      rcases query with rfl | rfl | rfl | rfl | rfl <;> intro line <;> rfl
  paren := fun line => by
    simp only [List.mem_cons, List.not_mem_nil, or_false] at listed
    rcases listed with rfl | rfl | rfl | rfl | rfl <;> rfl
  plus := fun _ line => by
    simp only [List.mem_cons, List.not_mem_nil, or_false] at listed
    rcases listed with rfl | rfl | rfl | rfl | rfl <;> rfl
  bound := fun _ line => by
    simp only [List.mem_cons, List.not_mem_nil, or_false] at listed
    rcases listed with rfl | rfl | rfl | rfl | rfl <;> rfl

/-- Another bound, after a type that has none of its own. -/
theorem another : EndsType false trails (.op "+" :: tokens) where
  op := fun text listed => by
    simp only [List.mem_cons, List.not_mem_nil, or_false] at listed
    rcases listed with rfl | rfl | rfl | rfl | rfl <;> intro line <;> rfl
  paren := fun _ => rfl
  plus := nofun
  bound := fun _ _ => rfl

/-- The trait that a path goes through. -/
theorem interface : EndsType plus false (.word "as" :: tokens) where
  op := fun text listed => by
    have real : ∀ text ∈ ["<", "::", "!", "->", "#"], text.toList ≠ [] := by decide
    exact Parser.startsOp_other_token (real text listed) rfl
  paren := fun line => by rw [trees_name (by decide)]; rfl
  plus := fun _ => Parser.startsOp_other_token (by decide) rfl
  bound := nofun

end EndsType

end Token

end VariantMerge
