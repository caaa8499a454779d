import VariantMerge.Proofs.Token.Spelling

/-!
# Trees that were read

What the lexer reads as a word, a literal or a lifetime is one when it stands alone. `Tree.IsRead` says
so of a tree with all that is in it, and the trees of every text are like that (`Tree.ofChars_isRead`).
The one literal that the lexer does not find in the text is what a documentation comment says: it is
written as a string literal first, and every text can be (`Lexer.literal_stringLiteral`).
-/

namespace VariantMerge

/-! ## Texts as string literals -/

namespace Literal

/-- A character that does not close the string is passed over. -/
theorem stringBody_more {state next : QuoteState} {c : Char}
    (step : stepString .text state c = .more next) (rest : List Char) :
    stringBody .text state (c :: rest) = stringBody .text next rest := by
  rw [stringBody, step]

/-- A digit of an escape, of which there are six at most. -/
theorem stepString_hexDigit {c : Char} (hex : Text.isHexDigit c = true) {count : Nat}
    (few : count < 6) (value : Nat) : stepString .text (.unicode count value) c =
      .more (.unicode (count + 1) (value * 16 + Text.digitValue c)) := by
  cases count with
  | zero => simp [stepString, hex]
  | succ count =>
      have score : c ≠ '_' := by
        rintro rfl
        exact absurd hex (by decide)
      have brace : c ≠ '\x7d' := by
        rintro rfl
        exact absurd hex (by decide)
      simp [stepString, stepUnicode, hex, few, score, brace]

/-- A digit that is printed is read as the same number. -/
theorem digitChar_hex {n : Nat} (small : n < 16) :
    Text.isHexDigit (Nat.digitChar n) = true ∧ Text.digitValue (Nat.digitChar n) = n := by
  have told : ∀ n : Fin 16, Text.isHexDigit (Nat.digitChar n) = true ∧
      Text.digitValue (Nat.digitChar n) = n := by decide
  exact told ⟨n, small⟩

/-- The digits of a number make up the number again. -/
theorem stringBody_digits {n : Nat} (few : (Nat.toDigits 16 n).length ≤ 6) (rest : List Char) :
    stringBody .text (.unicode 0 0) (Nat.toDigits 16 n ++ rest) =
      stringBody .text (.unicode (Nat.toDigits 16 n).length n) rest := by
  induction n using Nat.strong_induction_on generalizing rest with
  | _ n ih =>
      rw [Nat.toDigits_eq_if (by decide)] at few ⊢
      split
      next small =>
        obtain ⟨hex, same⟩ := digitChar_hex small
        rw [List.singleton_append, stringBody_more (stepString_hexDigit hex (by decide) 0), same]
        simp
      next large =>
        rw [if_neg large, List.length_append, List.length_singleton] at few
        obtain ⟨hex, same⟩ := digitChar_hex (Nat.mod_lt n (by decide : 0 < 16))
        rw [List.append_assoc, ih (n / 16) (Nat.div_lt_self (by omega) (by decide)) (by omega),
          List.singleton_append, stringBody_more (stepString_hexDigit hex (by omega) _), same,
          List.length_append, List.length_singleton, Nat.div_add_mod']

/-- A character has no more than six digits. -/
theorem length_hexDigits (c : Char) : (Nat.toDigits 16 c.toNat).length ≤ 6 := by
  refine (Nat.length_toDigits_le_iff (by decide) (by decide)).mpr ?_
  have valid : c.toNat.isValidChar := c.valid
  simp only [Nat.isValidChar] at valid
  omega

/-- A character without a visible form is written by its code point. -/
theorem stringBody_codePoint (c : Char) (rest : List Char) :
    stringBody .text .unicodeOpen ('\x7b' :: (Nat.toDigits 16 c.toNat ++ '\x7d' :: rest)) =
      stringBody .text .plain rest := by
  have opened : stepString .text .unicodeOpen '\x7b' = .more (.unicode 0 0) := rfl
  have some_ := Nat.length_toDigits_pos (b := 16) (n := c.toNat)
  rw [stringBody_more opened, stringBody_digits (length_hexDigits c)]
  refine stringBody_more ?_ rest
  obtain ⟨count, length⟩ := Nat.exists_eq_succ_of_ne_zero some_.ne'
  have valid : c.toNat.isValidChar := c.valid
  rw [length]
  simp [stepString, stepUnicode, valid]

/-- Each character is read as what it is escaped to. -/
theorem stringBody_escape (c : Char) (rest : List Char) :
    stringBody .text .plain (Text.escape c ++ rest) = stringBody .text .plain rest := by
  unfold Text.escape
  by_cases quote : c = '"'
  · rw [quote]
    rfl
  by_cases backslash : c = '\\'
  · rw [backslash]
    rfl
  by_cases feed : c = '\n'
  · rw [feed]
    rfl
  by_cases carriage : c = '\r'
  · rw [carriage]
    rfl
  by_cases tab : c = '\t'
  · rw [tab]
    rfl
  by_cases zero : c = '\x00'
  · rw [zero]
    rfl
  simp only [beq_eq_false_iff_ne.mpr quote, beq_eq_false_iff_ne.mpr backslash,
    beq_eq_false_iff_ne.mpr feed, beq_eq_false_iff_ne.mpr carriage, beq_eq_false_iff_ne.mpr tab,
    beq_eq_false_iff_ne.mpr zero, Bool.false_eq_true, if_false]
  split
  · exact stringBody_more (by simp [stepString, stepPlain, quote, backslash, carriage]) rest
  · rw [List.append_assoc, List.append_assoc, List.singleton_append]
    exact stringBody_codePoint c rest

/-- An escaped text is closed by the quote behind it. -/
theorem stringBody_escapeLiteral (cs after : List Char) :
    stringBody .text .plain (Text.escapeLiteral cs ++ '"' :: after) = some after := by
  induction cs with
  | nil => rfl
  | cons c cs ih =>
      rw [Text.escapeLiteral, List.append_assoc]
      split
      · exact ih
      · rw [stringBody_escape, ih]

end Literal

/-- Every text can be written as a string literal. -/
theorem Lexer.literal_stringLiteral (text : String) :
    Lexer.literal (Text.stringLiteral text).toList = some [] := by
  have whole : (Text.stringLiteral text).toList = '"' :: (Text.escapeLiteral text.toList ++ ['"']) := by
    simp [Text.stringLiteral]
  have quoted : Literal.quoted ('"' :: (Text.escapeLiteral text.toList ++ ['"'])) = some [] :=
    Literal.stringBody_escapeLiteral text.toList []
  rw [whole, Lexer.literal, failureMark_eq_false (by decide), if_neg Bool.false_ne_true,
    Literal.literal_eq, quoted]
  rfl

/-! ## Trees -/

/-- The text is read as a literal, whatever comes after it in the text that it was read from. -/
def Lexer.WasLiteral (text : String) : Prop :=
  ∃ after, literal (text.toList ++ after) = some after

namespace Lexer.WasLiteral

variable {text : String}

/-- What was a literal of the lexer is one, unless it is only the front of a number. -/
theorem isLiteral (was : WasLiteral text)
    (whole : ∀ c ∈ text.toList.head?, c.isDigit = true → Literal.isWholeNumber text.toList = true) :
    IsLiteral text.toList :=
  ⟨was, whole⟩

/-- A literal is no word. -/
theorem isName_eq_false (was : WasLiteral text) : Token.isName text = false := by
  refine Bool.eq_false_iff.mpr fun named => ?_
  obtain ⟨c, rest, starts, letter⟩ := Token.isName_starts named
  have undigited : c.isDigit = false := isDigit_eq_false letter
  have isLiteral := was.isLiteral fun d first digit => by
    rw [starts] at first
    cases first
    rw [undigited] at digit
    cases digit
  have alone : Lexer.literal (text.toList ++ []) = some [] :=
    isLiteral.ends (fun _ first => by cases first) (fun _ _ _ => nofun)
  rw [List.append_nil, literal_eq_none_of_name (beq_iff_eq.mp named)] at alone
  cases alone

end Lexer.WasLiteral

namespace Tree

mutual

/-- What the tree holds is read as the same when it stands alone. -/
def IsRead : Tree → Prop
  | ident _ text => Token.isName text = true
  | literal _ text => Lexer.WasLiteral text
  | lifetime _ name => Literal.rawableWord name.toList = some []
  | punct _ _ _ => True
  | group _ _ _ inner => AllRead inner

def AllRead : List Tree → Prop
  | [] => True
  | tree :: rest => tree.IsRead ∧ AllRead rest

end

/-- Trees were read if each of them was. -/
theorem allRead_iff {trees : List Tree} : AllRead trees ↔ ∀ tree ∈ trees, tree.IsRead := by
  induction trees with
  | nil => simp [AllRead]
  | cons tree rest ih => rw [AllRead, ih, List.forall_mem_cons]

end Tree

namespace Lexer

/-- A word or lifetime stands alone as well. -/
theorem rawableWord_alone {cs after : List Char} (found : Literal.rawableWord cs = some after) :
    Literal.rawableWord (readPart cs after) = some [] := by
  obtain ⟨lexeme, rfl⟩ := Literal.rawableWord_suffix found
  have alone := Literal.rawableWord_ends lexeme after [] (fun _ first => by cases first) found
  rwa [List.append_nil, ← readPart_self lexeme after] at alone

/-- A name that was read is a name by itself. -/
theorem name_alone {cs after : List Char} (found : name cs = some after) :
    name (readPart cs after) = some [] := by
  have rawable : Literal.rawableWord cs = some after := by
    rw [name] at found
    split at found
    · cases found
    · exact found
  obtain ⟨lexeme, rfl⟩ := Literal.rawableWord_suffix rawable
  have alone := name_ends lexeme after [] (fun _ first => by cases first) found
  rwa [List.append_nil, ← readPart_self lexeme after] at alone

/-- A leaf that is read was read. -/
theorem isRead_leaf {line : Nat} {cs after : List Char} {tree : Tree}
    (found : leaf? line cs = some (tree, after)) : tree.IsRead := by
  unfold leaf? at found
  split at found
  next read =>
    cases found
    obtain ⟨lexeme, rfl, -⟩ := literal_consumes _ _ read
    refine ⟨after, ?_⟩
    rwa [String.toList_ofList, readPart_self]
  next =>
    split at found
    next =>
      obtain ⟨behind, read, same⟩ := Option.map_eq_some_iff.mp found
      cases same
      rw [Tree.IsRead, String.toList_ofList]
      exact rawableWord_alone (rawableWord_of_lifetimeName read)
    next =>
      split at found
      next =>
        cases found
        trivial
      next =>
        obtain ⟨behind, read, same⟩ := Option.map_eq_some_iff.mp found
        cases same
        rw [Tree.IsRead, Token.isName, String.toList_ofList, name_alone read]
        rfl
    next => cases found

/-- The attribute of a comment that documents counts as read. -/
theorem isRead_docAttribute (line : Nat) (text : List Char) (inner : Bool) :
    Tree.AllRead (docAttribute line text inner) := by
  have text_ : (Tree.literal line (Text.stringLiteral (String.ofList text))).IsRead :=
    ⟨[], by rw [List.append_nil, literal_stringLiteral]⟩
  have word : (Tree.ident line "doc").IsRead := by
    rw [Tree.IsRead]
    decide
  cases inner <;>
    simp only [docAttribute, Tree.AllRead, Tree.IsRead, List.cons_append, List.nil_append,
      if_true, if_false, Bool.false_eq_true, true_and, and_true] <;>
    exact ⟨word, text_⟩

/-- **All trees are read.** By induction on the steps, what the lexer gives was read. -/
theorem allRead_read {steps line : Nat} {cs : List Char} {groups : List OpenGroup} {done trees : List Tree}
    (ok : read steps line cs groups done = .ok trees) (here : Tree.AllRead done)
    (before : ∀ group ∈ groups, Tree.AllRead group.before) : Tree.AllRead trees := by
  fun_induction read steps line cs groups done with
  | case1 =>
      cases ok
      exact Tree.allRead_iff.mpr fun tree listed =>
        Tree.allRead_iff.mp here tree (List.mem_reverse.mp listed)
  | case2 => cases ok
  | case3 => cases ok
  | case4 steps line c rest groups done blank ih => exact ih ok here before
  | case5 steps line c rest groups done visible after comment ih => exact ih ok here before
  | case6 => cases ok
  | case7 steps line c rest groups done visible plain text inner after documents bare ih =>
      refine ih ok (Tree.allRead_iff.mpr fun tree listed => ?_) before
      rcases List.mem_append.mp listed with doc | earlier
      · exact Tree.allRead_iff.mp (isRead_docAttribute line text inner) tree (List.mem_reverse.mp doc)
      · exact Tree.allRead_iff.mp here tree earlier
  | case8 steps line c rest groups done visible plain undocumented delimiter opened ih =>
      exact ih ok trivial (List.forall_mem_cons.mpr ⟨here, before⟩)
  | case9 steps line c rest done visible plain undocumented group outer notOpened closed ih =>
      obtain ⟨first, others⟩ := List.forall_mem_cons.mp before
      refine ih ok ⟨?_, first⟩ others
      exact Tree.allRead_iff.mpr fun tree listed =>
        Tree.allRead_iff.mp here tree (List.mem_reverse.mp listed)
  | case10 => cases ok
  | case11 => cases ok
  | case12 steps line c rest groups done visible plain undocumented notClosed notOpened tree after
      leaf ih => exact ih ok ⟨isRead_leaf leaf, here⟩ before
  | case13 => cases ok

end Lexer

/-- **What is read is read again.** -/
theorem Tree.ofChars_allRead {cs : List Char} {trees : List Tree} (ok : Tree.ofChars cs = .ok trees) :
    Tree.AllRead trees := by
  unfold ofChars at ok
  split at ok <;> exact Lexer.allRead_read ok trivial nofun

end VariantMerge
