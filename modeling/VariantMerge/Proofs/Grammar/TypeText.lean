import VariantMerge.Source
import VariantMerge.Variant
import VariantMerge.Proofs.Grammar.ConstantRuns
import VariantMerge.Proofs.Grammar.TakenTypes

/-!
# Types read back from their text

The text of a type that is read back token by token is read as that type. So each type that is taken from
a source text, and is steady, is the same type again when its text is read.
-/

namespace VariantMerge

open VariantMerge.Parser

/-- What runs on tokens up to their end reads each text that is cut into their trees. -/
theorem Parser.Runs.parseChars {α : Type} {phrase : Grammar → Parser α} {tokens : List Token} {a : α}
    {chars : List Char} (cut : Tree.ofChars chars = .ok (Token.trees 1 tokens))
    (runs : (phrase (Grammar.forTrees (Token.trees 1 tokens))).Runs tokens [] a) :
    Source.parseChars phrase chars = .ok a := by
  obtain ⟨next, ran⟩ := runs 1 1 none
  have run : Parser.run (phrase (Grammar.forTrees (Token.trees 1 tokens))) (Token.trees 1 tokens) =
      .ok a := by
    rw [Parser.run, Cursor.start, ran]
    rfl
  rw [Source.parseChars, cut]
  exact congrArg (Except.mapError SyntaxError.mk) run

/-- What runs on legible tokens up to their end reads their text. -/
theorem Parser.Runs.parse {α : Type} {phrase : Grammar → Parser α} {tokens : List Token} {a : α}
    (legible : Token.Legible tokens)
    (runs : ∀ depth, Token.weights tokens ≤ depth → (phrase (Grammar.upTo depth)).Runs tokens [] a) :
    Source.parse phrase (Token.render tokens) = .ok a := by
  have light : Token.weights tokens ≤ 4 * Tree.sizes (Token.trees 1 tokens) + 8 := by
    have := Token.weights_le_sizes 1 tokens legible
    omega
  exact parseChars (Token.ofChars_render legible) (runs _ light)

theorem Ty.ReadsBack.parse_text {t : Ty} (back : t.ReadsBack true) :
    Source.parse Source.ty t.text = .ok t := by
  refine Runs.parse back.legible fun depth light => ?_
  have runs := back.inner light .nil
  rwa [List.append_nil] at runs

/-- What is read from a text is taken from its trees. -/
theorem Source.exists_run {α : Type} {phrase : Grammar → Parser α} {source : String} {a : α}
    (read : Source.parse phrase source = .ok a) : ∃ trees last, Tree.AllRead trees ∧
      phrase (Grammar.forTrees trees) (Cursor.start trees) = .ok (a, last) := by
  obtain ⟨trees, cut, read⟩ := Except.bind_eq_ok_iff.mp read
  have all : Tree.AllRead trees := Tree.ofChars_allRead (Except.mapError_eq_ok_iff.mp cut)
  have ran := Except.mapError_eq_ok_iff.mp read
  unfold Parser.run at ran
  split at ran
  next => cases ran
  next last ran_ =>
    split at ran
    next =>
      cases ran
      exact ⟨trees, last, all, ran_⟩
    next => cases ran

/-- A type that is read from a text is taken from its trees. -/
theorem Ty.taken_of_parse {source : String} {t : Ty} (read : Source.parse Source.ty source = .ok t) :
    ∃ before after, Ty.Taken true before t after := by
  obtain ⟨trees, last, all, ran⟩ := Source.exists_run read
  have taken := (upTo_takes (4 * Tree.sizes trees + 8)).ty true trees (Cursor.start trees) t last
    ⟨all, rfl⟩ ran
  exact ⟨trees, last.trees, taken.2⟩

/-- **The text of a type is read as the type that it was taken from.** This holds for each type that can be
read, if the constants in it and what it passes to macros are read back by themselves. All that reading
changes is where the lifetimes stand among the arguments of a name; the tokens are the same. -/
theorem Ty.parse_text_of_steady {source : String} {t : Ty}
    (read : Source.parse Source.ty source = .ok t) (steady : (TypeNode.ty t).Steady) :
    Source.parse Source.ty t.text = .ok t.normal ∧ t.normal.tokens = t.tokens := by
  obtain ⟨before, after, taken⟩ := Ty.taken_of_parse read
  have here := (taken.back steady).parse_text
  have same : t.normal.text = t.text := congrArg Token.render t.normal_tokens
  exact ⟨same ▸ here, t.normal_tokens⟩

namespace Ty

/-- A reference to an array whose length is a sum, with a constant among its arguments. -/
def matrixRows : Ty :=
  .reference (some "a") false (.array (.path ⟨false, [.mk "Matrix" (.angle false
    [.type (.path ⟨false, [.mk "T" .none]⟩), .const [.word "3"]] false)]⟩) [.word "N", .op "+", .word "1"])

def isMatrixRows : Ty → Bool
  | .reference (some "a") false (.array (.path (.mk false [.mk "Matrix" (.angle false
      [.type (.path (.mk false [.mk "T" .none])), .const [.word "3"]] false)]))
        [.word "N", .op "+", .word "1"]) => true
  | _ => false

theorem eq_matrixRows {t : Ty} (same : t.isMatrixRows = true) : t = matrixRows := by
  unfold isMatrixRows at same
  split at same
  · rfl
  · cases same

/-- A path of one name is as steady as its arguments. -/
theorem steady_name {name : String} {arguments : Arguments}
    (inside : (TypeNode.arguments arguments).Steady) :
    (TypeNode.ty (.path ⟨false, [.mk name arguments]⟩)).Steady :=
  .of_children trivial (List.forall_mem_singleton.mpr (.of_children trivial
    (List.forall_mem_singleton.mpr (.of_children trivial (List.forall_mem_singleton.mpr inside)))))

/-- The length is a plain constant, and the argument a literal. -/
theorem steady_matrixRows : (TypeNode.ty matrixRows).Steady := by
  have digit : ∀ text ∈ ["1", "3"], Lexer.IsLiteral text.toList := by
    have told : ∀ text ∈ ["1", "3"], Lexer.literal (text.toList ++ []) = some [] ∧
        Literal.isWholeNumber text.toList = true := by decide
    exact fun text listed => ⟨⟨[], (told text listed).1⟩, fun _ _ _ => (told text listed).2⟩
  have names : Path.IsNames ⟨false, [.mk "N" .none]⟩ :=
    ⟨List.cons_ne_nil _ _, rfl, List.forall_mem_singleton.mpr ⟨by decide, .inl (by decide)⟩⟩
  have one : Token.IsPlainPart .core [.word "1"] := .literal (digit "1" (by decide))
  have added : Token.IsPlainPart (.tail false) [.op "+", .word "1"] :=
    .operator (by decide) (absurd · Bool.false_ne_true) one.unsigned .last
  have sum : Token.IsPlainConstant [.word "N", .op "+", .word "1"] :=
    .row (Token.IsPlainPart.path names).unsigned added
  have bare : (TypeNode.arguments .none).Steady := .of_children trivial (List.forall_mem_nil _)
  have name : (TypeNode.generic (.type (.path ⟨false, [.mk "T" .none]⟩))).Steady :=
    .of_children trivial (List.forall_mem_singleton.mpr (steady_name bare))
  have three : (TypeNode.generic (.const [.word "3"])).Steady :=
    .of_children (Token.IsConstArgument.of_literal (digit "3" (by decide))) (List.forall_mem_nil _)
  have element : (TypeNode.arguments (.angle false
      [.type (.path ⟨false, [.mk "T" .none]⟩), .const [.word "3"]] false)).Steady :=
    .of_children trivial (List.forall_mem_cons.mpr ⟨name, List.forall_mem_singleton.mpr three⟩)
  have lifetime : (TypeNode.lifetime "a").Steady := .of_children trivial (List.forall_mem_nil _)
  refine .of_children trivial (List.forall_mem_cons.mpr ⟨lifetime, List.forall_mem_singleton.mpr ?_⟩)
  exact .of_children sum.isConstant (List.forall_mem_singleton.mpr (steady_name element))

theorem parse_text_matrixRows : ∃ t, Source.parse Source.ty "& 'a [Matrix < T, 3 > ; N+1]" = .ok t ∧
    (TypeNode.ty t).Steady ∧ Source.parse Source.ty t.text = .ok t.normal ∧
      t.normal.tokens = t.tokens := by
  have seen : (Source.parse Source.ty "& 'a [Matrix < T, 3 > ; N+1]").toOption.map isMatrixRows =
      some true := by decide +kernel
  obtain ⟨t, read, same⟩ := Except.exists_of_toOption_map seen
  obtain rfl := eq_matrixRows same
  exact ⟨_, read, steady_matrixRows, parse_text_of_steady read steady_matrixRows⟩

/-- Two operators are written as one where a constant has them side by side. -/
theorem parse_text_fused : ∃ t back, Source.parse Source.ty "[u8; N & &M]" = .ok t ∧
    t.text = "[u8; N&&M]" ∧ Source.parse Source.ty t.text = .ok back ∧ back.tokens ≠ t.tokens := by
  have seen : (Source.parse Source.ty "[u8; N & &M]").toOption.map (fun t =>
      (t.text, Token.weights t.tokens,
        (Source.parse Source.ty t.text).toOption.map (Token.weights ·.tokens))) =
      some ("[u8; N&&M]", 7, some 6) := by decide +kernel
  obtain ⟨t, read, seen⟩ := Except.exists_of_toOption_map seen
  simp only [Prod.mk.injEq] at seen
  obtain ⟨text, seven, seen⟩ := seen
  obtain ⟨back, again, six⟩ := Except.exists_of_toOption_map seen
  refine ⟨t, back, read, text, again, fun same => ?_⟩
  rw [same, seven] at six
  exact absurd six (by decide)

end Ty

end VariantMerge
