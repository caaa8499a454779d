import VariantMerge.Token.Render
import VariantMerge.Proofs.Token.Locality

/-!
# Reading what tokens are written as

`Token.trees` are the trees that tokens stand for when they are written one after the other: the
characters of an operator touch, and so do two operators of which neither calls for a blank. Tokens
are legible (`Token.Legible`) if each of them can be read and none goes on with the next one: a number
with a point, a slash with another one or a star. The text of legible tokens is read as their trees
(`Token.ofChars_render`), so no two of them fuse.
-/

namespace VariantMerge

namespace Token

/-! ## The trees of tokens -/

/-- Whether the text is read as a word. -/
def isName (text : String) : Bool :=
  Lexer.name text.toList == some []

/-- Whether an operator has a blank on some side. -/
def isSpaced (text : String) : Bool :=
  spacedOps.contains text || trailingOps.contains text

/-- Whether tokens that are written without a blank start with punctuation. -/
def startsPunct : List Token → Bool
  | .op text :: _ | .openOp text :: _ => !spacedOps.contains text
  | .lifetime _ :: _ => true
  | .word text :: _ => text.toList.head? == some '\''
  | _ => false

/-- The characters of an operator, each of which touches the next one, in front of other trees. -/
def opTrees (line : Nat) (joint : Bool) : List Char → List Tree → List Tree
  | [], rest => rest
  | [c], rest => .punct line c joint :: rest
  | c :: cs, rest => .punct line c true :: opTrees line joint cs rest

mutual

/-- The line feeds in a token. -/
def feeds : Token → Nat
  | word text | lifetime text => text.toList.count '\n'
  | group _ inner => feedsAll inner
  | _ => 0

def feedsAll : List Token → Nat
  | [] => 0
  | token :: rest => token.feeds + feedsAll rest

end

mutual

/-- The trees of a token that is written in front of others. -/
def treesOnto (line : Nat) (next : List Token) : Token → List Tree → List Tree
  | word text, rest => (if isName text then .ident line text else .literal line text) :: rest
  | lifetime name, rest => .lifetime line name :: rest
  | op text, rest | openOp text, rest =>
    opTrees line (!isSpaced text && startsPunct next) text.toList rest
  | group delimiter inner, rest =>
    .group line (line + feedsAll inner) delimiter (trees line inner) :: rest

/-- The trees of tokens that are written from this line on. -/
def trees (line : Nat) : List Token → List Tree
  | [] => []
  | token :: rest => token.treesOnto line rest (trees (line + token.feeds) rest)

end

/-! ## Legible tokens -/

/-- Whether no comment starts among these characters. -/
def isCommentFree : List Char → Bool
  | [] => true
  | c :: rest => !Lexer.startsComment (c :: rest) && isCommentFree rest

/-- Whether the text is made of punctuation that is read as such. -/
def isOperator (text : String) : Bool :=
  !text.toList.isEmpty && text.toList.all (fun c => Lexer.punctuation.contains c && c != '\'') &&
    isCommentFree text.toList

/-- Whether a token does not go on with the one that is written after it. -/
def isApart : Token → Token → Bool
  | word text, op next =>
    (next == "#" || next.toList.head? != some '#') &&
      !(text.toList.head?.any Char.isDigit && next.toList.head? == some '.')
  | lifetime _, op next => next.toList.head? != some '#'
  | op text, op next =>
    !(text.toList.getLast? == some '/' && next.toList.head?.any ['/', '*'].contains)
  | _, _ => true

mutual

/-- The token is read as what it is. -/
def IsLegible : Token → Prop
  | word text => isName text = true ∨ Lexer.IsLiteral text.toList
  | lifetime name => Literal.rawableWord name.toList = some []
  | op text => isOperator text = true
  | openOp _ => False
  | group _ inner => Legible inner

/-- Each of the tokens is read as what it is, and does not go on with the next one. -/
def Legible : List Token → Prop
  | [] => True
  | token :: rest => token.IsLegible ∧ (∀ next ∈ rest.head?, token.isApart next = true) ∧ Legible rest

end

end Token

/-! ## Steps of the reader -/

namespace Lexer

/-- The characters in front of `follow` are read as these trees, which end on the second line. -/
def Reaches (front : List Char) (line : Nat) (follow : List Char) (next : Nat)
    (trees : List Tree) : Prop :=
  ∃ used ≤ front.length, ∀ steps groups done,
    read (steps + used) line (front ++ follow) groups done =
      read steps next follow groups (trees.reverse ++ done)

/-- The blanks are few, and none of them is a sign or a letter. -/
theorem toNat_of_isSpace {c : Char} (space : isSpace c = true) :
    (9 ≤ c.toNat ∧ c.toNat ≤ 13) ∨ (0x2000 ≤ c.toNat ∧ c.toNat ≤ 0x200A) ∨
      c.toNat ∈ [0x20, 0x85, 0xA0, 0x1680, 0x2028, 0x2029, 0x202F, 0x205F, 0x3000, 0x200e,
        0x200f] := by
  have mark (d : Char) : c = d ↔ c.toNat = d.toNat := ⟨congrArg _, Char.toNat_inj.mp⟩
  have code : c.val.toNat = c.toNat := rfl
  simp only [isSpace, Text.isBlankAscii, Text.isBlank, Bool.or_eq_true, Bool.and_eq_true,
    decide_eq_true_eq, beq_iff_eq, UInt32.le_iff_toNat_le, mark] at space
  simp only [← UInt32.toNat_inj, code, UInt32.reduceToNat, Char.reduceToNat] at space
  simp only [List.mem_cons, List.not_mem_nil, or_false]
  omega

/-- What is a blank or a closing delimiter is no token. -/
theorem leaf?_eq_none_of_apart {c : Char}
    (apart : isSpace c = true ∨ (Delimiter.ofClosing? c).isSome = true) (line : Nat)
    (rest : List Char) : leaf? line (c :: rest) = none := by
  let codes := List.range' 9 5 ++ List.range' 0x2000 0x10 ++
    [0x20, 0x85, 0xA0, 0x1680, 0x2028, 0x2029, 0x202F, 0x205F, 0x3000, 0x29, 0x5d, 0x7d]
  have told : (codes.all fun n =>
      !(['"', 'b', 'c', 'r', '\'', '('].contains (Char.ofNat n)) && !(Char.ofNat n).isDigit &&
        !Text.isIdentStart (Char.ofNat n) && !punctuation.contains (Char.ofNat n)) = true := by
    decide +kernel
  have listed : c.toNat ∈ codes := by
    simp only [codes, List.mem_append, List.mem_range'_1]
    rcases apart with space | closes
    · have place := toNat_of_isSpace space
      simp only [List.mem_cons, List.not_mem_nil, or_false] at place ⊢
      omega
    · obtain ⟨delimiter, found⟩ := Option.isSome_iff_exists.mp closes
      have same : delimiter.closing = c := by simpa using List.find?_some found
      rw [← same]
      cases delimiter <;> decide
  have here := List.all_eq_true.mp told _ listed
  rw [Char.ofNat_toNat] at here
  simp only [Bool.and_eq_true, Bool.not_eq_true'] at here
  refine leaf?_eq_none ?_ here.1.1.2 here.1.2 ?_ line
  · simpa using here.1.1.1
  · rw [startsPunct, List.head?_cons, Option.any_some, here.2, Bool.false_and]

/-- Where a token is read, no group is opened. -/
theorem opened?_eq_none_of_leaf {line : Nat} {c : Char} {rest after : List Char} {tree : Tree}
    (found : leaf? line (c :: rest) = some (tree, after)) : opened? (c :: rest) = none := by
  rw [opened?]
  split
  next => rfl
  next unmarked =>
    rw [List.head?_cons, Option.bind_some]
    by_contra opens
    obtain ⟨delimiter, opens⟩ := Option.ne_none_iff_exists'.mp opens
    have same : delimiter.opening = c := by simpa using List.find?_some opens
    have nothing : literal (c :: rest) = none := by
      rw [literal, if_neg unmarked, Literal.literal_eq, ← same]
      rw [Literal.quoted_eq_none (by cases delimiter <;> decide)]
      exact Literal.number_eq_none (by cases delimiter <;> decide) rest
    have unnamed : name (c :: rest) = none := by
      cases read : name (c :: rest) with
      | none => rfl
      | some behind =>
          obtain ⟨first, tail, starts, letter⟩ := name_starts read
          cases starts
          rw [← same] at letter
          cases delimiter <;> exact absurd letter (by decide)
    rw [leaf?_cons nothing (by rw [← same]; cases delimiter <;> decide), unnamed, startsPunct,
      List.head?_cons, ← same] at found
    cases delimiter <;> simp [punctuation, Delimiter.opening] at found

/-- A token is read in one step. -/
theorem read_leaf {line : Nat} {c : Char} {rest after : List Char} {tree : Tree}
    (found : leaf? line (c :: rest) = some (tree, after)) (steps : Nat) (groups : List OpenGroup)
    (done : List Tree) : read (steps + 1) line (c :: rest) groups done =
      read steps (line + (readPart rest after).count '\n') after groups (tree :: done) := by
  have space : ¬ isSpace c = true := fun space => by
    rw [leaf?_eq_none_of_apart (.inl space)] at found
    cases found
  have comment : startsComment (c :: rest) = false := Bool.eq_false_iff.mpr fun comment => by
    rw [leaf?_eq_none_of_startsComment comment] at found
    cases found
  have closing : Delimiter.ofClosing? c = none := by
    by_contra closes
    rw [leaf?_eq_none_of_apart (.inr (Option.isSome_iff_ne_none.mpr closes))] at found
    cases found
  rw [read.eq_def]
  simp only [if_neg space, (comment?_eq_none comment).1, (comment?_eq_none comment).2,
    opened?_eq_none_of_leaf found, closing, found]

namespace Reaches

variable {front back follow : List Char} {line middle next : Nat} {trees more : List Tree}

/-- Nothing is read from no characters. -/
theorem nil : Reaches [] line follow line [] :=
  ⟨0, le_rfl, fun _ _ _ => rfl⟩

/-- What reads up to a point and what reads on from there read one after the other. -/
theorem append (first : Reaches front line (back ++ follow) middle trees)
    (second : Reaches back middle follow next more) :
    Reaches (front ++ back) line follow next (trees ++ more) := by
  obtain ⟨used, few, reads⟩ := first
  obtain ⟨later, fewLater, goesOn⟩ := second
  refine ⟨later + used, by simp only [List.length_append]; omega, fun steps groups done => ?_⟩
  rw [← Nat.add_assoc, List.append_assoc, reads, goesOn, List.reverse_append, List.append_assoc]

/-- A blank is skipped. -/
theorem blank (second : Reaches back line follow next trees) :
    Reaches (' ' :: back) line follow next trees := by
  obtain ⟨used, few, reads⟩ := second
  refine ⟨used + 1, by simpa using few, fun steps groups done => ?_⟩
  rw [← reads, ← Nat.add_assoc, List.cons_append, read.eq_def]
  rfl

/-- A blank in front is passed over. -/
theorem blankIf {present : Bool} (second : Reaches back line follow next trees) :
    Reaches ((if present then [' '] else []) ++ back) line follow next trees := by
  cases present with
  | true => exact second.blank
  | false => exact second

/-- What is read as one token. -/
theorem leaf {tree : Tree} (found : leaf? line (front ++ follow) = some (tree, follow))
    (some_ : front ≠ []) : Reaches front line follow (line + front.count '\n') [tree] := by
  obtain ⟨c, front, rfl⟩ := List.exists_cons_of_ne_nil some_
  have first : c ≠ '\n' := by
    rintro rfl
    rw [List.cons_append, leaf?_eq_none_of_apart (.inl (by decide))] at found
    cases found
  refine ⟨1, by simp, fun steps groups done => ?_⟩
  rw [List.cons_append] at found ⊢
  rw [read_leaf found, readPart_self, List.count_cons_of_ne first]
  rfl

/-- A group is read from its opening to its closing delimiter. -/
theorem group {delimiter : Delimiter}
    (inside : Reaches front line (delimiter.closing :: follow) next trees)
    (comment : startsComment (front ++ delimiter.closing :: follow) = false) :
    Reaches (delimiter.opening :: front ++ [delimiter.closing]) line follow next
      [.group line next delimiter trees] := by
  obtain ⟨used, few, reads⟩ := inside
  refine ⟨used + 2, by simp only [List.length_append, List.length_cons, List.length_nil]; omega,
    fun steps groups done => ?_⟩
  have opens : opened? (delimiter.opening :: (front ++ delimiter.closing :: follow)) =
      some delimiter := by
    have unmarked : failureMark.isPrefixOf
        (delimiter.opening :: (front ++ delimiter.closing :: follow)) = false := by
      refine Bool.eq_false_iff.mpr fun marked => ?_
      obtain ⟨behind, same⟩ := List.isPrefixOf_iff_prefix.mp marked
      obtain ⟨-, same⟩ := List.cons.inj same
      rw [← same] at comment
      cases comment
    rw [opened?, unmarked]
    cases delimiter <;> rfl
  have spaceOpening : isSpace delimiter.opening = false := by cases delimiter <;> decide
  have commentOpening : startsComment
      (delimiter.opening :: (front ++ delimiter.closing :: follow)) = false := by
    cases delimiter <;> rfl
  have spaceClosing : isSpace delimiter.closing = false := by cases delimiter <;> decide
  have commentClosing : startsComment (delimiter.closing :: follow) = false := by
    cases delimiter <;> rfl
  have closes : Delimiter.ofClosing? delimiter.closing = some delimiter := by
    cases delimiter <;> decide
  have other : opened? (delimiter.closing :: follow) = none := by
    rw [opened?, failureMark_eq_false (by cases delimiter <;> decide)]
    cases delimiter <;> rfl
  calc
    read (steps + used + 1 + 1) line (delimiter.opening :: front ++ [delimiter.closing] ++ follow)
        groups done
      = read (steps + used + 1) line (front ++ delimiter.closing :: follow)
          (⟨line, delimiter, done⟩ :: groups) [] := by
        rw [List.cons_append, List.cons_append, List.append_assoc, List.singleton_append,
          read.eq_def]
        simp only [spaceOpening, Bool.false_eq_true, if_false, opens,
          (comment?_eq_none commentOpening).1, (comment?_eq_none commentOpening).2]
    _ = read (steps + 1) next (delimiter.closing :: follow) (⟨line, delimiter, done⟩ :: groups)
          (trees.reverse ++ []) := by
        rw [Nat.add_right_comm, reads]
    _ = read steps next follow groups (.group line next delimiter trees :: done) := by
        rw [List.append_nil, read.eq_def]
        simp only [spaceClosing, Bool.false_eq_true, if_false, other, closes, if_true,
          List.reverse_reverse, (comment?_eq_none commentClosing).1,
          (comment?_eq_none commentClosing).2]

/-- Characters of which each one is punctuation that touches the next one. -/
theorem op {cs : List Char} {joint : Bool} (some_ : cs ≠ [])
    (punct : ∀ c ∈ cs, c ∈ punctuation ∧ c ≠ '\'')
    (comment : ∀ front back, cs = front ++ back → back ≠ [] → startsComment (back ++ follow) = false)
    (last : startsPunct follow = joint) :
    Reaches cs line follow line (Token.opTrees line joint cs []) := by
  have starts (c : Char) (back : List Char) (listed : c ∈ punctuation)
      (free : startsComment (c :: back) = false) : startsPunct (c :: back) = true := by
    rw [startsPunct, free, List.head?_cons, Option.any_some, List.contains_iff_mem.mpr listed]
    rfl
  have one (c : Char) (front behind : List Char) (within : cs = front ++ c :: behind) :
      leaf? line (c :: (behind ++ follow)) =
        some (.punct line c (startsPunct (behind ++ follow)), behind ++ follow) := by
    obtain ⟨listed, unquoted⟩ := punct c (by simp [within])
    have here := starts c (behind ++ follow) listed (comment front (c :: behind) within
      (List.cons_ne_nil c behind))
    rw [leaf?_cons (literal_eq_none_of_punct here unquoted) unquoted, if_pos here]
  have feedless {c : Char} (listed : c ∈ punctuation) : c ≠ '\n' := by
    rintro rfl
    exact absurd listed (by decide)
  induction cs with
  | nil => exact absurd rfl some_
  | cons c rest ih =>
      have sure := feedless (punct c List.mem_cons_self).1
      cases rest with
      | nil =>
          have found := one c [] [] rfl
          rw [List.nil_append, last] at found
          have here : Reaches [c] line follow _ _ := leaf found (List.cons_ne_nil c [])
          simpa [sure, Token.opTrees] using here
      | cons d others =>
          have more : d :: others ≠ [] := List.cons_ne_nil d others
          have touches : startsPunct (d :: others ++ follow) = true :=
            starts d _ (punct d (by simp)).1 (comment [c] (d :: others) rfl more)
          have found := one c [] (d :: others) rfl
          rw [touches] at found
          have here : Reaches [c] line (d :: others ++ follow) _ _ := leaf found (List.cons_ne_nil c [])
          have first : Reaches [c] line (d :: others ++ follow) line [.punct line c true] := by
            simpa [sure] using here
          refine first.append (ih more (fun e listed => punct e (List.mem_cons_of_mem _ listed))
            (fun front back within => comment (c :: front) back (by rw [within]; rfl))
            fun e front behind within => one e (c :: front) behind (by rw [within]; rfl))

/-- The trees that are read up to the end of a text are the trees of the text. -/
theorem ofChars {cs : List Char} (reaches : Reaches cs 1 [] next trees)
    (unmarked : cs.head? ≠ some '\ufeff') : Tree.ofChars cs = .ok trees := by
  obtain ⟨used, few, reads⟩ := reaches
  have read : read cs.length 1 cs [] [] = .ok trees := by
    have here := reads (cs.length - used) [] []
    rw [Nat.sub_add_cancel few, List.append_nil, List.append_nil] at here
    rw [here, read.eq_def]
    simp
  rw [Tree.ofChars.eq_def]
  split
  next => exact absurd rfl unmarked
  next => exact read

end Reaches

end Lexer

/-! ## Reading what tokens are written as -/

namespace Token

/-- The trees of a token stand in front of those that come later. -/
theorem treesOnto_append (line : Nat) (next : List Token) (token : Token) (trees : List Tree) :
    token.treesOnto line next trees = token.treesOnto line next [] ++ trees := by
  have ops (joint : Bool) (cs : List Char) :
      opTrees line joint cs trees = opTrees line joint cs [] ++ trees := by
    fun_induction opTrees line joint cs trees with
    | case1 => rfl
    | case2 => rfl
    | case3 c cs rest some_ ih =>
        rw [opTrees, ih]
        · rfl
        · exact some_
  cases token with
  | op text | openOp text => rw [treesOnto, treesOnto]; exact ops _ _
  | _ => rfl

/-- What may follow tokens: nothing, or the delimiter that closes their group. -/
def Closes (follow : List Char) : Prop :=
  ∀ c ∈ follow.head?, (Delimiter.ofClosing? c).isSome = true

/-- What closes a group is the closing sign of some delimiter. -/
theorem closing_of_ofClosing? {c : Char} (closes : (Delimiter.ofClosing? c).isSome = true) :
    ∃ delimiter : Delimiter, c = delimiter.closing := by
  obtain ⟨delimiter, found⟩ := Option.isSome_iff_exists.mp closes
  have same : delimiter.closing = c := by simpa using List.find?_some found
  exact ⟨delimiter, same.symm⟩

/-- The end of the text closes what is open. -/
theorem closes_nil : Closes [] := fun _ found => absurd found (Option.not_mem_none _)

/-- A name begins with a letter. -/
theorem isName_starts {text : String} (named : isName text = true) :
    ∃ c rest, text.toList = c :: rest ∧ Text.isIdentStart c = true :=
  Lexer.name_starts (beq_iff_eq.mp named)

/-- A word is made of what names go on with, and of a number sign if it is raw. -/
theorem isIdentContinue_of_isName {text : String} (named : isName text = true) :
    ∀ c ∈ text.toList, c = '#' ∨ Text.isIdentContinue c = true := by
  have word {cs : List Char} (read : Literal.word cs = some []) :
      ∀ c ∈ cs, c = '#' ∨ Text.isIdentContinue c = true := by
    obtain ⟨c, rest, rfl, letter, goesOn, -⟩ := Literal.word_eq_some_iff.mp read
    rw [List.append_nil]
    exact List.forall_mem_cons.mpr ⟨.inr (Text.isIdentContinue_of_isIdentStart letter),
      fun d listed => .inr (goesOn d listed)⟩
  have read : Lexer.name text.toList = some [] := beq_iff_eq.mp named
  obtain ⟨rest, whole, inside⟩ | plain := Literal.rawableWord_cases (Lexer.rawableWord_of_name read)
  · rw [whole]
    exact List.forall_mem_cons.mpr ⟨.inr (by decide), List.forall_mem_cons.mpr ⟨.inl rfl, word inside⟩⟩
  · exact word plain

/-- The characters of a word are characters of names. -/
theorem isNameText_of_isName {text : String} (named : isName text = true) :
    Text.isNameText text = true := by
  refine List.all_eq_true.mpr fun c listed => ?_
  rw [Text.isNameChar, Bool.or_eq_true, beq_iff_eq]
  exact (isIdentContinue_of_isName named c listed).symm

/-- What begins a name is no sign. -/
theorem notMem_punctuation {c : Char} (letter : Text.isIdentStart c = true) :
    c ∉ Lexer.punctuation := fun listed => by
  have told : Lexer.punctuation.all (!Text.isIdentStart ·) = true := by decide
  have here := List.all_eq_true.mp told c listed
  rw [letter] at here
  cases here

/-- A word is read as one, whatever parts it from what follows. -/
theorem leaf?_of_isName {text : String} (named : isName text = true) {follow : List Char}
    (parts : Text.Parts follow) (line : Nat) :
    Lexer.leaf? line (text.toList ++ follow) = some (.ident line text, follow) := by
  have alone : Lexer.name (text.toList ++ []) = some [] := by
    rw [List.append_nil]
    exact beq_iff_eq.mp named
  have found := Lexer.name_ends text.toList [] follow parts alone
  obtain ⟨c, rest, whole, letter⟩ := isName_starts named
  have nothing := Lexer.literal_eq_none_of_name found
  have same := Lexer.readPart_self text.toList follow
  have listed : Lexer.punctuation.contains c = false := by simpa using notMem_punctuation letter
  have unquoted : c ≠ '\'' := by
    rintro rfl
    exact absurd letter (by decide)
  have text_eq : String.ofList text.toList = text := String.ofList_toList
  rw [whole, List.cons_append] at found nothing same ⊢
  rw [Lexer.leaf?_cons nothing unquoted, Lexer.startsPunct, List.head?_cons, Option.any_some, listed,
    Bool.false_and, if_neg Bool.false_ne_true, found, Option.map_some, same, ← whole, text_eq]

/-- A literal is read back as one leaf, unless a point would make a number longer. -/
theorem leaf?_of_isLiteral {text : String} (isLiteral : Lexer.IsLiteral text.toList)
    {follow : List Char} (parts : Text.Parts follow)
    (point : ∀ c ∈ text.toList.head?, c.isDigit = true → follow.head? ≠ some '.') (line : Nat) :
    Lexer.leaf? line (text.toList ++ follow) = some (.literal line text, follow) := by
  have text_eq : String.ofList text.toList = text := String.ofList_toList
  rw [Lexer.leaf?.eq_def, isLiteral.ends parts point]
  simp only [Lexer.readPart_self, text_eq]

/-- A lifetime is read back as one leaf. -/
theorem leaf?_of_lifetime {name : String} (named : Literal.rawableWord name.toList = some [])
    {follow : List Char} (parts : Text.Parts follow) (line : Nat) :
    Lexer.leaf? line ('\'' :: (name.toList ++ follow)) = some (.lifetime line name, follow) := by
  have alone : Literal.rawableWord (name.toList ++ []) = some [] := by rwa [List.append_nil]
  have found := Lexer.lifetimeName_of_rawableWord parts
    (Literal.rawableWord_ends name.toList [] follow parts alone)
  obtain ⟨c, rest, whole, letter⟩ := Lexer.rawableWord_starts named
  have text_eq : String.ofList name.toList = name := String.ofList_toList
  have unquoted : Literal.singleBody .text .plain (name.toList ++ follow) = none := by
    rw [whole, List.cons_append, Literal.singleBody.eq_def]
    simp only [Lexer.stepSingle_letter letter]
    split
    next => contradiction
    next behind _ same =>
      exfalso
      cases rest with
      | nil => exact absurd (parts '\'' (by rw [← List.nil_append follow, same]; rfl)) (by decide)
      | cons d others =>
          obtain ⟨rfl, -⟩ := List.cons.inj same
          rw [whole, Literal.rawableWord_eq, if_neg (by simp [List.isPrefixOf])] at named
          obtain ⟨first, tail, split, -, goesOn, -⟩ := Literal.word_eq_some_iff.mp named
          rw [List.append_nil] at split
          obtain ⟨-, rfl⟩ := List.cons.inj split
          exact absurd (goesOn '\'' List.mem_cons_self) (by decide)
    next => rfl
  have nothing : Lexer.literal ('\'' :: (name.toList ++ follow)) = none := by
    rw [Lexer.literal_quote, unquoted, Option.map_none]
  rw [Lexer.leaf?.eq_def, nothing]
  simp only [found, Option.map_some, Lexer.readPart_self, text_eq]

/-- A literal starts with no punctuation but a quote. -/
theorem isLiteral_starts {text : String} (isLiteral : Lexer.IsLiteral text.toList) :
    ∃ c rest, text.toList = c :: rest ∧ (c ∉ Lexer.punctuation ∨ c = '\'') := by
  obtain ⟨⟨after, found⟩, -⟩ := isLiteral
  obtain ⟨c, rest, whole⟩ := List.exists_cons_of_ne_nil (Lexer.literal_consumes.ne_nil found)
  refine ⟨c, rest, whole, or_iff_not_imp_right.mpr fun unquoted listed => ?_⟩
  rw [whole, List.cons_append] at found
  have comment : Lexer.startsComment (c :: (rest ++ after)) = false :=
    Bool.eq_false_iff.mpr fun comment => by
      have nothing := Lexer.leaf?_eq_none_of_startsComment comment 1
      rw [Lexer.leaf?.eq_def, found] at nothing
      cases nothing
  have punct : Lexer.startsPunct (c :: (rest ++ after)) = true := by
    rw [Lexer.startsPunct, comment, List.head?_cons, Option.any_some,
      List.contains_iff_mem.mpr listed]
    rfl
  rw [Lexer.literal_eq_none_of_punct punct unquoted] at found
  cases found

/-- So does any word that can be written. -/
theorem word_starts {text : String} (legible : IsLegible (.word text)) :
    ∃ c rest, text.toList = c :: rest ∧ (c ∉ Lexer.punctuation ∨ c = '\'') := by
  rcases legible with named | isLiteral
  · obtain ⟨c, rest, whole, letter⟩ := isName_starts named
    exact ⟨c, rest, whole, .inl (notMem_punctuation letter)⟩
  · exact isLiteral_starts isLiteral

/-- A word does not begin with a sign, except for the quote of a character. -/
theorem word_head {text : String} (legible : IsLegible (.word text)) {c : Char}
    (first : c ∈ text.toList.head?) : c ∉ Lexer.punctuation ∨ c = '\'' := by
  obtain ⟨d, rest, whole, kind⟩ := word_starts legible
  rw [whole] at first
  cases first
  exact kind

/-- A word has a first character. -/
theorem word_ne_nil {text : String} (legible : IsLegible (.word text)) : text.toList ≠ [] := by
  obtain ⟨c, rest, whole, -⟩ := word_starts legible
  simp [whole]

/-- An operator is made of signs, and begins no comment. -/
theorem isOperator_punct {text : String} (operator : isOperator text = true) :
    text.toList ≠ [] ∧ (∀ c ∈ text.toList, c ∈ Lexer.punctuation ∧ c ≠ '\'') ∧
      isCommentFree text.toList = true := by
  simpa [isOperator, and_assoc] using operator

/-- Whether an operator has a blank before it. -/
def isParted (before : Before) (text : String) : Bool :=
  !trailingOps.contains text &&
    if spacedOps.contains text then !before.isClear else text == "#" && before.partsBraces

/-- What comes after an operator. -/
def afterOp (text : String) (rest : List Token) (follow : List Char) : List Char :=
  (if isSpaced text then [' '] else []) ++ (writeAll (op text).after rest).toList ++ follow

/-- A word is written behind a blank if it would go on with what is before. -/
theorem write_word (before : Before) (text : String) : (write before (.word text)).toList =
    (if before.partsWords then [' '] else []) ++ text.toList := by
  rw [write, String.toList_append]
  cases before.partsWords <;> rfl

/-- A lifetime is written behind a blank if it would go on with what is before. -/
theorem write_lifetime (before : Before) (name : String) :
    (write before (.lifetime name)).toList =
      (if before.partsWords then [' '] else []) ++ '\'' :: name.toList := by
  rw [write, String.toList_append, String.toList_append]
  cases before.partsWords <;> rfl

/-- An operator is written with the blanks that it has around it. -/
theorem write_op (before : Before) (text : String) : (write before (.op text)).toList =
    (if isParted before text then [' '] else []) ++ text.toList ++
      (if isSpaced text then [' '] else []) := by
  have written : writeOp before text =
      if trailingOps.contains text then text ++ " "
      else if spacedOps.contains text then
        (if !before.isClear then " " else "") ++ text ++ " "
      else (if text == "#" && before.partsBraces then " " else "") ++ text := rfl
  rw [write, written, isParted, isSpaced]
  cases trailingOps.contains text <;> cases spacedOps.contains text <;>
    cases before.isClear <;> cases text == "#" && before.partsBraces <;> simp

/-- A group is written between its signs, with nothing open inside. -/
theorem write_group (before : Before) (delimiter : Delimiter) (inner : List Token) :
    (write before (.group delimiter inner)).toList =
      (if delimiter == .brace && before.partsBraces then [' '] else []) ++
        (delimiter.opening :: (writeAll .opened inner).toList ++ [delimiter.closing]) := by
  have one (c : Char) : c.toString.toList = [c] := String.toList_singleton c
  rw [write, String.toList_append, String.toList_append, String.toList_append, one, one]
  cases delimiter == .brace && before.partsBraces <;>
    simp only [List.append_assoc, List.cons_append, List.nil_append] <;> rfl

/-- Tokens are written one after the other, each as the one before it asks. -/
theorem writeAll_toList (before : Before) (token : Token) (rest : List Token) :
    (writeAll before (token :: rest)).toList =
      (token.write before).toList ++ (writeAll token.after rest).toList := by
  rw [writeAll, String.toList_append]

/-- An operator with what comes after it. -/
theorem writeAll_op (before : Before) (text : String) (rest : List Token) (follow : List Char) :
    (writeAll before (.op text :: rest)).toList ++ follow =
      (if isParted before text then [' '] else []) ++ text.toList ++ afterOp text rest follow := by
  rw [writeAll_toList, write_op, afterOp]
  simp only [List.append_assoc]

/-- The first character that is written. -/
inductive StartsWith (before : Before) : List Token → Char → Prop where
  | nil {c : Char} : (Delimiter.ofClosing? c).isSome = true → StartsWith before [] c
  | blank {tokens : List Token} : StartsWith before tokens ' '
  | word {text : String} {rest : List Token} {c : Char} : before.partsWords = false →
    c ∈ text.toList.head? → StartsWith before (.word text :: rest) c
  | lifetime {name : String} {rest : List Token} : before.partsWords = false →
    StartsWith before (.lifetime name :: rest) '\''
  | op {text : String} {rest : List Token} {c : Char} : isParted before text = false →
    c ∈ text.toList.head? → StartsWith before (.op text :: rest) c
  | group {delimiter : Delimiter} {inner rest : List Token} :
    StartsWith before (.group delimiter inner :: rest) delimiter.opening

variable {before : Before} {tokens : List Token} {follow : List Char} {c : Char}

/-- A blank that may be written is the first character, or there is none. -/
theorem head_blankIf {blank : Bool} {cs : List Char}
    (first : c ∈ ((if blank then [' '] else []) ++ cs).head?) :
    c = ' ' ∨ blank = false ∧ c ∈ cs.head? := by
  cases blank with
  | true =>
      cases first
      exact .inl rfl
  | false => exact .inr ⟨rfl, first⟩

/-- What is written begins as its first token does. -/
theorem startsWith_writeAll (legible : Legible tokens) (closes : Closes follow)
    (first : c ∈ ((writeAll before tokens).toList ++ follow).head?) : StartsWith before tokens c := by
  match tokens with
  | [] => exact .nil (closes c first)
  | .word text :: rest =>
      obtain ⟨d, others, whole, -⟩ := word_starts legible.1
      rw [writeAll_toList, write_word, List.append_assoc, List.append_assoc] at first
      obtain rfl | ⟨clear, head⟩ := head_blankIf first
      · exact .blank
      · rw [whole] at head
        cases head
        exact .word clear (by rw [whole]; rfl)
  | .lifetime name :: rest =>
      rw [writeAll_toList, write_lifetime, List.append_assoc, List.append_assoc] at first
      obtain rfl | ⟨clear, head⟩ := head_blankIf first
      · exact .blank
      · cases head
        exact .lifetime clear
  | .op text :: rest =>
      obtain ⟨d, others, whole⟩ := List.exists_cons_of_ne_nil (isOperator_punct legible.1).1
      rw [writeAll_op, List.append_assoc] at first
      obtain rfl | ⟨clear, head⟩ := head_blankIf first
      · exact .blank
      · rw [whole] at head
        cases head
        exact .op clear (by rw [whole]; rfl)
  | .group delimiter inner :: rest =>
      rw [writeAll_toList, write_group, List.append_assoc, List.append_assoc] at first
      obtain rfl | ⟨-, head⟩ := head_blankIf first
      · exact .blank
      · cases head
        exact .group

/-- Words and lifetimes end where the next token starts. -/
theorem parts_writeAll {token : Token} (legible : Legible (token :: tokens)) (closes : Closes follow)
    (wordy : token.after.partsWords = true) (open_ : token.after ≠ .closed) :
    Text.Parts ((writeAll token.after tokens).toList ++ follow) ∧
      ∀ text, token = .word text → text.toList.head?.any Char.isDigit = true →
        ((writeAll token.after tokens).toList ++ follow).head? ≠ some '.' := by
  have told : (Lexer.punctuation.filter (! ['\'', '#'].contains ·)).all Text.partsWords = true := by
    decide
  obtain ⟨-, apart, legible⟩ := legible
  have first {c : Char} (first : c ∈ ((writeAll token.after tokens).toList ++ follow).head?) :
      Text.partsWords c = true ∧
        ∀ text, token = .word text → text.toList.head?.any Char.isDigit = true → c ≠ '.' := by
    cases startsWith_writeAll legible closes first with
    | nil closes =>
        obtain ⟨delimiter, rfl⟩ := closing_of_ofClosing? closes
        cases delimiter <;> exact ⟨by decide, fun _ _ _ => by decide⟩
    | blank => exact ⟨by decide, fun _ _ _ => by decide⟩
    | word other => rw [wordy] at other; cases other
    | lifetime other => rw [wordy] at other; cases other
    | @group delimiter => cases delimiter <;> exact ⟨by decide, fun _ _ _ => by decide⟩
    | @op text rest c parted head =>
        have here := apart _ rfl
        obtain ⟨some_, punct, -⟩ := isOperator_punct legible.1
        obtain ⟨listed, unquoted⟩ := punct c (List.mem_of_mem_head? head)
        have head : text.toList.head? = some c := head
        have noSign : c ≠ '#' := by
          rintro rfl
          cases token with
          | word word =>
              have sign : text = "#" := by
                simpa [isApart, head] using (Bool.and_eq_true_iff.mp here).1
              subst sign
              cases parted
          | lifetime name => simp [isApart, head] at here
          | op text | openOp text =>
              simp only [after] at wordy
              split at wordy <;> cases wordy
          | group delimiter inner => exact open_ rfl
        refine ⟨?_, ?_⟩
        · refine List.all_eq_true.mp told c (List.mem_filter.mpr ⟨listed, ?_⟩)
          simp [unquoted, noSign]
        · rintro word rfl digit rfl
          simp [isApart, head, digit] at here
  exact ⟨fun c here => (first here).1, fun text same digit here => (first here).2 text same digit rfl⟩

/-- A comment starts within an operator or with its last character. -/
theorem startsComment_of_free {cs : List Char} (free : isCommentFree cs = true)
    (last : cs.getLast? = some '/' → ∀ c ∈ follow.head?, c ∉ ['/', '*']) {front back : List Char}
    (whole : cs = front ++ back) (some_ : back ≠ []) :
    Lexer.startsComment (back ++ follow) = false := by
  induction front generalizing cs with
  | cons d front ih =>
      subst whole
      refine ih (Bool.and_eq_true_iff.mp free).2 (fun ends => last ?_) rfl
      have ends : (front ++ back).getLast? = some '/' := ends
      rw [List.cons_append, List.getLast?_cons, ends]
      rfl
  | nil =>
      obtain rfl : cs = back := whole
      match cs, some_ with
      | [d], _ =>
          refine Bool.eq_false_iff.mpr fun comment => ?_
          obtain rfl := Lexer.head_of_startsComment comment
          cases follow with
          | nil => cases comment
          | cons e rest =>
              have other := last rfl e rfl
              simp only [List.mem_cons, List.not_mem_nil, or_false, not_or] at other
              simp [Lexer.startsComment_eq, List.isPrefixOf, Ne.symm other.1, Ne.symm other.2]
                at comment
      | d :: e :: rest, _ =>
          have here : Lexer.startsComment (d :: e :: rest) = false := by
            simpa using (Bool.and_eq_true_iff.mp free).1
          rw [Lexer.startsComment_eq] at here ⊢
          simpa [List.isPrefixOf] using here

/-- What comes after an operator does not make it the start of a comment. -/
theorem head_afterOp {text : String} (legible : Legible (.op text :: tokens))
    (closes : Closes follow) (last : text.toList.getLast? = some '/') :
    ∀ c ∈ (afterOp text tokens follow).head?, c ∉ ['/', '*'] := by
  intro c first
  rw [afterOp] at first
  cases spaced : isSpaced text with
  | true =>
      rw [spaced] at first
      cases first
      decide
  | false =>
      have clear : (op text).after.partsWords = false := by
        simp only [after]
        split <;> rfl
      rw [spaced, if_neg Bool.false_ne_true, List.nil_append] at first
      obtain ⟨-, apart, legible⟩ := legible
      cases startsWith_writeAll legible closes first with
      | nil closes =>
          obtain ⟨delimiter, rfl⟩ := closing_of_ofClosing? closes
          cases delimiter <;> decide
      | blank => decide
      | lifetime => decide
      | @group delimiter => cases delimiter <;> decide
      | word other head =>
          have punct : ['/', '*'] ⊆ Lexer.punctuation := by decide
          obtain other | rfl := word_head legible.1 head
          · exact fun listed => other (punct listed)
          · decide
      | op parted head =>
          have here := apart _ rfl
          have head : _ = some c := head
          simpa [isApart, last, head] using here

/-- No comment begins where tokens are written. -/
theorem startsComment_writeAll (legible : Legible tokens) (closes : Closes follow) :
    Lexer.startsComment ((writeAll before tokens).toList ++ follow) = false := by
  refine Bool.eq_false_iff.mpr fun comment => ?_
  obtain ⟨c, rest, whole⟩ : ∃ c rest, (writeAll before tokens).toList ++ follow = c :: rest := by
    refine List.exists_cons_of_ne_nil fun nothing => ?_
    rw [nothing] at comment
    cases comment
  rw [whole] at comment
  obtain rfl := Lexer.head_of_startsComment comment
  have first : '/' ∈ ((writeAll before tokens).toList ++ follow).head? := by rw [whole]; rfl
  generalize slash : '/' = c at first
  cases startsWith_writeAll legible closes first with
  | nil closes => subst slash; cases closes
  | blank => cases slash
  | lifetime => cases slash
  | @group delimiter => cases delimiter <;> cases slash
  | word other head =>
      subst slash
      obtain other | same := word_head legible.1 head
      · exact other (by decide)
      · cases same
  | @op text others _ parted head =>
      obtain ⟨some_, -, free⟩ := isOperator_punct legible.1
      have plain : Lexer.startsComment (text.toList ++ afterOp text others follow) = false :=
        startsComment_of_free free (head_afterOp legible closes) (List.nil_append _).symm some_
      rw [writeAll_op, parted, if_neg Bool.false_ne_true, List.nil_append] at whole
      rw [whole, comment] at plain
      cases plain

/-- Whether the first character that is written behind an operator is punctuation. -/
theorem punct_writeAll (legible : Legible tokens) (closes : Closes follow) :
    ((writeAll .op tokens).toList ++ follow).head?.any Lexer.punctuation.contains =
      startsPunct tokens := by
  match tokens with
  | [] =>
      cases follow with
      | nil => rfl
      | cons d rest =>
          obtain ⟨delimiter, rfl⟩ := closing_of_ofClosing? (closes d rfl)
          cases delimiter <;> rfl
  | .word next :: rest =>
      rw [writeAll_toList, write_word, startsPunct]
      obtain ⟨d, others, whole, kind⟩ := word_starts legible.1
      obtain other | rfl := kind
      · have unquoted : d ≠ '\'' := by
          rintro rfl
          exact other (by decide)
        simp [whole, Before.partsWords, other, unquoted]
      · simp [whole, Before.partsWords, Lexer.punctuation]
  | .lifetime name :: rest =>
      rw [writeAll_toList, write_lifetime, startsPunct]
      rfl
  | .op next :: rest =>
      have disjoint : spacedOps.all (!trailingOps.contains ·) = true := by decide
      obtain ⟨some_, punct, -⟩ := isOperator_punct legible.1
      obtain ⟨d, others, whole⟩ := List.exists_cons_of_ne_nil some_
      have listed : d ∈ Lexer.punctuation := (punct d (by simp [whole])).1
      rw [writeAll_op, isParted, startsPunct, whole]
      cases spaced : spacedOps.contains next with
      | true =>
          have other := List.all_eq_true.mp disjoint next (List.contains_iff_mem.mp spaced)
          rw [other]
          rfl
      | false => simp [Before.partsBraces, listed]
  | .openOp next :: rest => exact legible.1.elim
  | .group delimiter inner :: rest =>
      rw [writeAll_toList, write_group]
      cases delimiter <;> rfl

/-- Whether what is written after an operator touches it. -/
theorem startsPunct_afterOp {text : String} (legible : Legible (.op text :: tokens))
    (closes : Closes follow) :
    Lexer.startsPunct (afterOp text tokens follow) = (!isSpaced text && startsPunct tokens) := by
  rw [afterOp]
  cases spaced : isSpaced text with
  | true => rfl
  | false =>
      have glued : (op text).after = .op := by
        simp only [after]
        rw [if_neg (by simpa [isSpaced] using spaced)]
      rw [if_neg Bool.false_ne_true, List.nil_append, Lexer.startsPunct,
        startsComment_writeAll legible.2.2 closes, glued, punct_writeAll legible.2.2 closes,
        Bool.not_false, Bool.true_and, Bool.and_true]

/-! ## The text of tokens -/

mutual

/-- A legible token in front of others is read as its trees. -/
theorem reaches_write (before : Before) {rest : List Token} {follow : List Char}
    (closes : Closes follow) (line : Nat) : ∀ token : Token, Legible (token :: rest) →
      Lexer.Reaches (token.write before).toList line ((writeAll token.after rest).toList ++ follow)
        (line + token.feeds) (token.treesOnto line rest [])
  | .word text, legible => by
      obtain ⟨parts, point⟩ := parts_writeAll legible closes rfl nofun
      rw [write_word]
      refine .blankIf (.leaf ?_ (word_ne_nil legible.1))
      cases named : isName text with
      | true =>
          rw [if_pos rfl]
          exact leaf?_of_isName named parts line
      | false =>
          rw [if_neg Bool.false_ne_true]
          refine leaf?_of_isLiteral (legible.1.resolve_left (by simp [named])) parts ?_ line
          exact fun c first digit => point text rfl (by rw [first]; exact digit)
  | .lifetime name, legible => by
      obtain ⟨parts, -⟩ := parts_writeAll legible closes rfl nofun
      rw [write_lifetime]
      refine .blankIf ?_
      have read : Lexer.Reaches ('\'' :: name.toList) line _ _ _ :=
        .leaf (leaf?_of_lifetime legible.1 parts line) nofun
      rwa [List.count_cons_of_ne (by decide)] at read
  | .op text, legible => by
      obtain ⟨some_, punct, free⟩ := isOperator_punct legible.1
      rw [write_op, List.append_assoc]
      refine .blankIf ?_
      have chars : Lexer.Reaches text.toList line _ line _ := .op some_ punct
        (fun front back => startsComment_of_free free (head_afterOp legible closes))
        (startsPunct_afterOp legible closes)
      have feedless : (line + (op text).feeds) = line := rfl
      rw [feedless, treesOnto]
      rw [afterOp, List.append_assoc] at chars
      have blank : Lexer.Reaches (if isSpaced text then [' '] else []) line
          ((writeAll (op text).after rest).toList ++ follow) line [] := by
        have nothing : Lexer.Reaches [] line ((writeAll (op text).after rest).toList ++ follow) line
            [] := .nil
        simpa using nothing.blankIf
      simpa using chars.append blank
  | .openOp text, legible => legible.1.elim
  | .group delimiter inner, legible => by
      rw [write_group]
      refine .blankIf ?_
      have closing : Closes (delimiter.closing :: ((writeAll .closed rest).toList ++ follow)) := by
        rintro c ⟨rfl⟩
        cases delimiter <;> rfl
      exact (reaches_writeAll .opened closing line inner legible.1).group
        (startsComment_writeAll legible.1 closing)

/-- **Legible tokens are read as their trees**, up to the end of their group. -/
theorem reaches_writeAll (before : Before) {follow : List Char} (closes : Closes follow)
    (line : Nat) : ∀ tokens : List Token, Legible tokens →
      Lexer.Reaches (writeAll before tokens).toList line follow (line + feedsAll tokens)
        (trees line tokens)
  | [], _ => .nil
  | token :: rest, legible => by
      have first := reaches_write before closes line token legible
      have others := reaches_writeAll token.after closes (line + token.feeds) rest legible.2.2
      rw [writeAll, String.toList_append, trees, treesOnto_append, feedsAll, ← Nat.add_assoc]
      exact first.append others

end

mutual

/-- Legible tokens are not joined any further. -/
theorem fuse_of_legible : ∀ token : Token, token.IsLegible → token.fuse = token
  | .word _, _ | .lifetime _, _ | .op _, _ => rfl
  | .openOp _, legible => legible.elim
  | .group delimiter inner, legible => by rw [fuse, fuseAll_of_legible inner legible]

/-- Legible tokens have no open operators. -/
theorem fuseAll_of_legible : ∀ tokens : List Token, Legible tokens → fuseAll tokens = tokens
  | [], _ => rfl
  | token :: rest, legible => by
      rw [fuseAll, fuseAll_of_legible rest legible.2.2, fuse_of_legible token legible.1]
      cases token with
      | openOp text => exact legible.1.elim
      | _ => rfl

end

/-- No text of legible tokens starts with a byte order mark. -/
theorem head_writeAll_ne_mark (before : Before) (legible : Legible tokens) :
    (writeAll before tokens).toList.head? ≠ some '\ufeff' := by
  intro first
  have nothing (rest : List Char) : Lexer.leaf? 1 ('\ufeff' :: rest) = none :=
    Lexer.leaf?_eq_none (by decide) (by decide) (by decide +kernel) (by rfl) 1
  generalize mark : '\ufeff' = c at first
  have first : c ∈ ((writeAll before tokens).toList ++ []).head? := by rwa [List.append_nil]
  cases startsWith_writeAll legible closes_nil first with
  | nil closes => subst mark; cases closes
  | blank => cases mark
  | lifetime => cases mark
  | @group delimiter => cases delimiter <;> cases mark
  | word other head =>
      subst mark
      rcases legible.1 with named | isLiteral
      · obtain ⟨d, others, starts, letter⟩ := isName_starts named
        rw [starts] at head
        cases head
        exact absurd letter (by decide +kernel)
      · obtain ⟨⟨after, found⟩, -⟩ := isLiteral
        obtain ⟨d, others, starts⟩ :=
          List.exists_cons_of_ne_nil (Lexer.literal_consumes.ne_nil found)
        rw [starts] at head found
        cases head
        have here := nothing (others ++ after)
        rw [← List.cons_append, Lexer.leaf?.eq_def, found] at here
        cases here
  | op parted head =>
      subst mark
      exact absurd ((isOperator_punct legible.1).2.1 _ (List.mem_of_mem_head? head)).1 (by decide)

/-- **The text of legible tokens is read as their trees.** No token fuses with the next one, and none
is cut in two. -/
theorem ofChars_render (legible : Legible tokens) :
    Tree.ofChars (render tokens).toList = .ok (trees 1 tokens) := by
  rw [render, fuseAll_of_legible tokens legible]
  exact (reaches_writeAll .start closes_nil 1 tokens legible).ofChars
    (head_writeAll_ne_mark .start legible)

/-! ## How many trees there are -/

mutual

/-- The number of tokens in this one, itself included. -/
def weight : Token → Nat
  | group _ inner => 1 + weights inner
  | _ => 1

/-- The number of tokens in a list, those inside groups included. -/
def weights : List Token → Nat
  | [] => 0
  | token :: rest => token.weight + weights rest

end

/-- The weight of tokens is the sum of the weights of both parts. -/
theorem weights_append (front back : List Token) :
    weights (front ++ back) = weights front + weights back := by
  induction front with
  | nil => simp [weights]
  | cons token front ih => simp only [List.cons_append, weights, ih]; omega

/-- The size of trees is the sum of the sizes of both parts. -/
theorem sizes_append (front back : List Tree) :
    Tree.sizes (front ++ back) = Tree.sizes front + Tree.sizes back := by
  induction front with
  | nil => simp [Tree.sizes]
  | cons tree front ih => simp only [List.cons_append, Tree.sizes, ih]; omega

/-- Each tree counts at least once. -/
theorem length_le_sizes (trees : List Tree) : trees.length ≤ Tree.sizes trees := by
  induction trees with
  | nil => exact Nat.zero_le _
  | cons tree trees ih =>
      have positive : 1 ≤ tree.size := by cases tree <;> simp [Tree.size]
      simp only [List.length_cons, Tree.sizes]
      omega

mutual

/-- A token is no heavier than its trees are large, so that the trees are fuel enough. -/
theorem weight_le_sizes (line : Nat) (next : List Token) : ∀ token : Token, token.IsLegible →
    token.weight ≤ Tree.sizes (token.treesOnto line next [])
  | .word text, _ =>
      length_le_sizes [if isName text then .ident line text else .literal line text]
  | .lifetime name, _ => length_le_sizes [.lifetime line name]
  | .op text, legible => by
      obtain ⟨c, rest, whole⟩ := List.exists_cons_of_ne_nil (isOperator_punct legible).1
      have some_ : 1 ≤ (opTrees line (!isSpaced text && startsPunct next) text.toList []).length := by
        rw [whole]
        cases rest <;> simp [opTrees]
      exact some_.trans (length_le_sizes _)
  | .openOp _, legible => legible.elim
  | .group delimiter inner, legible => by
      have inside := weights_le_sizes line inner legible
      simp only [weight, treesOnto, Tree.sizes, Tree.size]
      omega

/-- There are no more tokens than trees. -/
theorem weights_le_sizes (line : Nat) : ∀ tokens : List Token, Legible tokens →
    weights tokens ≤ Tree.sizes (trees line tokens)
  | [], _ => Nat.zero_le _
  | token :: rest, legible => by
      have here := weight_le_sizes line rest token legible.1
      have others := weights_le_sizes (line + token.feeds) rest legible.2.2
      rw [weights, trees, treesOnto_append, sizes_append]
      omega

end

end Token

end VariantMerge
