import VariantMerge.Proofs.Token.Spelling

/-!
# Texts that are read as tokens

A text may have more blanks in it than `Token.render` writes. It is read as some tokens
(`Token.ReadAs`) if it is made of their texts in order, where each word ends before the next character,
each operator touches what follows it only if it does so among the tokens, and blanks stand anywhere
between them.
-/

namespace VariantMerge

namespace Token

variable {line : Nat} {rest : List Token}

theorem trees_name {text : String} (named : isName text = true) :
    trees line (.word text :: rest) =
      .ident line text :: trees (line + text.toList.count '\n') rest := by
  rw [trees, treesOnto, if_pos named, feeds]

theorem trees_literal {text : String} (unnamed : isName text = false) :
    trees line (.word text :: rest) =
      .literal line text :: trees (line + text.toList.count '\n') rest := by
  rw [trees, treesOnto, if_neg (by simp [unnamed]), feeds]

theorem trees_op (text : String) : trees line (.op text :: rest) =
    opTrees line (!isSpaced text && startsPunct rest) text.toList (trees line rest) := rfl

/-- The characters are read as the trees of these tokens, on whatever line they start. -/
def ReadAs (chars : List Char) (tokens : List Token) : Prop :=
  ∀ line, ∃ next, Lexer.Reaches chars line [] next (trees line tokens)

/-- No operator starts with a word's characters. -/
theorem startsPunct_word {text : String} (named : isName text = true) (chars : List Char) :
    Lexer.startsPunct (text.toList ++ chars) = startsPunct (.word text :: rest) := by
  obtain ⟨c, others, whole, letter⟩ := isName_starts named
  have unquoted : c ≠ '\'' := by
    rintro rfl
    exact absurd letter (by decide)
  simp [Lexer.startsPunct, startsPunct, whole, notMem_punctuation letter, unquoted]

namespace ReadAs

variable {chars : List Char} {tokens : List Token} {text : String}

theorem nil : ReadAs [] [] := fun line => ⟨line, .nil⟩

theorem blank (reads : ReadAs chars tokens) : ReadAs (' ' :: chars) tokens :=
  fun line => (reads line).imp fun _ reaches => reaches.blank

theorem word (named : isName text = true) (parts : Text.Parts chars)
    (reads : ReadAs chars tokens) : ReadAs (text.toList ++ chars) (.word text :: tokens) := by
  intro line
  obtain ⟨c, others, whole, -⟩ := isName_starts named
  obtain ⟨next, reaches⟩ := reads (line + text.toList.count '\n')
  have here : Lexer.Reaches text.toList line (chars ++ []) (line + text.toList.count '\n')
      [.ident line text] := by
    rw [List.append_nil]
    exact .leaf (leaf?_of_isName named parts line) (by simp [whole])
  rw [trees_name named]
  exact ⟨next, here.append reaches⟩

theorem op (operator : isOperator text = true) (calm : text.toList.getLast? ≠ some '/')
    (touches : Lexer.startsPunct chars = (!isSpaced text && startsPunct tokens))
    (reads : ReadAs chars tokens) : ReadAs (text.toList ++ chars) (.op text :: tokens) := by
  intro line
  obtain ⟨some_, punct, free⟩ := isOperator_punct operator
  obtain ⟨next, reaches⟩ := reads line
  have here : Lexer.Reaches text.toList line (chars ++ []) line
      (opTrees line (!isSpaced text && startsPunct tokens) text.toList []) := by
    rw [List.append_nil]
    exact .op some_ punct (fun _ _ => startsComment_of_free free (absurd · calm)) touches
  refine ⟨next, ?_⟩
  rw [trees, treesOnto_append]
  exact here.append reaches

/-- The whole text is cut into the trees. -/
theorem ofChars (reads : ReadAs chars tokens) (unmarked : chars.head? ≠ some '\ufeff') :
    Tree.ofChars chars = .ok (trees 1 tokens) :=
  (reads 1).elim fun _ reaches => reaches.ofChars unmarked

end ReadAs

end Token

end VariantMerge
