import VariantMerge.Proofs.Text.Lines
import VariantMerge.Proofs.Token.Readers

/-!
# The tokens of a text

Which tokens characters are cut into does not depend on the groups that are open (`Lexer.cut?`), and
reading a text is cutting it and closing all groups (`Lexer.read_eq`). So lines that can be cut one
by one are cut the same way in a text that consists of them (`Lexer.cut?_of_lines`), and the tokens
of a text that makes sense can stand in any group (`openAfter_tokensAll?`).
-/

namespace VariantMerge

/-- A token as it stands in a text, wherever that is. A group is its two delimiters and what they
enclose. -/
inductive Piece where
  | ident (text : String)
  | literal (text : String)
  | lifetime (name : String)
  | punct (char : Char) (joint : Bool)
  | opened (delimiter : Delimiter)
  | closed (delimiter : Delimiter)
  deriving DecidableEq, Repr

namespace Tree

mutual

/-- The tokens of a tree in order. -/
def pieces : Tree → List Piece
  | ident _ text => [.ident text]
  | literal _ text => [.literal text]
  | lifetime _ name => [.lifetime name]
  | punct _ c joint => [.punct c joint]
  | group _ _ delimiter inner => .opened delimiter :: (piecesAll inner ++ [.closed delimiter])

/-- The tokens of trees one after the other. -/
def piecesAll : List Tree → List Piece
  | [] => []
  | tree :: rest => tree.pieces ++ piecesAll rest

end

/-- The pieces of trees are those of both parts. -/
theorem piecesAll_append (trees others : List Tree) :
    piecesAll (trees ++ others) = piecesAll trees ++ piecesAll others := by
  induction trees with
  | nil => rfl
  | cons tree rest ih => rw [List.cons_append, piecesAll, piecesAll, ih, List.append_assoc]

/-- One tree has its own pieces. -/
theorem piecesAll_singleton (tree : Tree) : piecesAll [tree] = tree.pieces := by
  rw [piecesAll, piecesAll, List.append_nil]

end Tree

/-- The tokens of a text, if it makes sense. In front of it, no byte order mark is expected. -/
def tokens? (text : String) : Option (List Piece) :=
  (Lexer.read text.toList.length 1 text.toList [] []).toOption.map Tree.piecesAll

/-! ## Groups -/

/-- The groups that are open after a token, innermost first, unless it closes none of them. -/
def Piece.openAfter : List Delimiter → Piece → Option (List Delimiter)
  | groups, .opened delimiter => some (delimiter :: groups)
  | innermost :: outer, .closed delimiter => if innermost = delimiter then some outer else none
  | [], .closed _ => none
  | groups, _ => some groups

/-- The groups that are open after tokens. -/
def openAfter (groups : List Delimiter) (pieces : List Piece) : Option (List Delimiter) :=
  pieces.foldlM Piece.openAfter groups

/-- What is open after pieces is what is open after the last of them. -/
theorem openAfter_append (groups : List Delimiter) (pieces rest : List Piece) :
    openAfter groups (pieces ++ rest) = (openAfter groups pieces).bind (openAfter · rest) :=
  List.foldlM_append

/-- A piece does not see what is open further out. -/
theorem Piece.openAfter_inside {groups after : List Delimiter} {piece : Piece}
    (opened : piece.openAfter groups = some after) (outer : List Delimiter) :
    piece.openAfter (groups ++ outer) = some (after ++ outer) := by
  cases piece with
  | closed delimiter =>
      cases groups with
      | nil => cases opened
      | cons innermost groups =>
          rw [Piece.openAfter] at opened
          split at opened
          next same =>
            cases opened
            exact if_pos same
          next => cases opened
  | _ =>
      cases groups <;> cases opened <;> rfl

/-- What is around tokens stays open. -/
theorem openAfter_inside {groups after : List Delimiter} {pieces : List Piece}
    (opened : openAfter groups pieces = some after) (outer : List Delimiter) :
    openAfter (groups ++ outer) pieces = some (after ++ outer) := by
  induction pieces generalizing groups with
  | nil =>
      cases opened
      rfl
  | cons piece rest ih =>
      obtain ⟨between, first, later⟩ := Option.bind_eq_some_iff.mp opened
      exact Option.bind_eq_some_iff.mpr ⟨_, piece.openAfter_inside first outer, ih later⟩

mutual

/-- A tree closes what it opens. -/
theorem openAfter_pieces (groups : List Delimiter) :
    (tree : Tree) → openAfter groups tree.pieces = some groups
  | .ident _ _ | .literal _ _ | .lifetime _ _ | .punct _ _ _ => by cases groups <;> rfl
  | .group _ _ delimiter inner => by
      have opening : Piece.openAfter groups (.opened delimiter) = some (delimiter :: groups) := by
        cases groups <;> rfl
      have closing : openAfter (delimiter :: groups) [.closed delimiter] = some groups := by
        simp [openAfter, Piece.openAfter]
      change (Piece.openAfter groups (.opened delimiter)).bind (openAfter ·
        (Tree.piecesAll inner ++ [.closed delimiter])) = _
      rw [opening, Option.bind_some, openAfter_append,
        openAfter_piecesAll (delimiter :: groups) inner, Option.bind_some, closing]

/-- Trees close what they open. -/
theorem openAfter_piecesAll (groups : List Delimiter) :
    (trees : List Tree) → openAfter groups (Tree.piecesAll trees) = some groups
  | [] => rfl
  | tree :: rest => by
      rw [Tree.piecesAll, openAfter_append, openAfter_pieces groups tree, Option.bind_some,
        openAfter_piecesAll groups rest]

end

namespace Lexer

/-! ## Cutting -/

/-- The tokens that characters start with, neither blank nor none, and the rest. A comment gives no
token, and a documentation comment those of its attribute. -/
def cutFirst? (c : Char) (rest : List Char) : Option (List Piece × List Char) :=
  match plainComment? (c :: rest) with
  | some after => some ([], after)
  | none =>
    match docComment? (c :: rest) with
    | some (text, inner, after) =>
      if hasBareReturn text then none
      else some (Tree.piecesAll (docAttribute 0 text inner), after)
    | none =>
      match opened? (c :: rest), Delimiter.ofClosing? c with
      | some delimiter, _ => some ([.opened delimiter], rest)
      | none, some delimiter => some ([.closed delimiter], rest)
      | none, none => (leaf? 0 (c :: rest)).map fun (tree, after) => (tree.pieces, after)

/-- The tokens of characters, whichever groups they are in, if so many steps suffice. -/
def cutWithin : Nat → List Char → Option (List Piece)
  | _, [] => some []
  | 0, _ :: _ => none
  | steps + 1, c :: rest =>
    if isSpace c then cutWithin steps rest
    else (cutFirst? c rest).bind fun (first, after) => (cutWithin steps after).map (first ++ ·)

/-- The tokens of characters, whichever groups they are in. -/
def cut? (cs : List Char) : Option (List Piece) :=
  cutWithin cs.length cs

/-- The line on which a token stands does not matter. -/
theorem leaf?_pieces (line : Nat) (cs : List Char) :
    (leaf? line cs).map (fun (tree, after) => (tree.pieces, after)) =
      (leaf? 0 cs).map fun (tree, after) => (tree.pieces, after) := by
  rw [leaf?.eq_def, leaf?.eq_def]
  cases literal cs with
  | some after => rfl
  | none =>
      simp only
      split
      next rest =>  cases lifetimeName rest <;> rfl
      next =>
        split
        · rfl
        · cases name _ <;> rfl
      next => rfl

/-- The pieces of a comment that documents do not tell its line. -/
theorem docAttribute_pieces (line : Nat) (text : List Char) (inner : Bool) :
    Tree.piecesAll (docAttribute line text inner) = Tree.piecesAll (docAttribute 0 text inner) := by
  cases inner <;> rfl

/-- The tokens before and inside of the groups that are open. -/
def openPieces : List OpenGroup → List Tree → List Piece
  | [], done => Tree.piecesAll done.reverse
  | group :: outer, done =>
    openPieces outer group.before ++ .opened group.delimiter :: Tree.piecesAll done.reverse

/-- A tree that was just read is the last one in its group. -/
theorem openPieces_cons (groups : List OpenGroup) (tree : Tree) (done : List Tree) :
    openPieces groups (tree :: done) = openPieces groups done ++ tree.pieces := by
  cases groups <;>
    simp [openPieces, Tree.piecesAll_append, Tree.piecesAll_singleton]

/-- Trees that were just read are the last ones in their group. -/
theorem openPieces_append (groups : List OpenGroup) (trees done : List Tree) :
    openPieces groups (trees.reverse ++ done) = openPieces groups done ++ Tree.piecesAll trees := by
  cases groups <;> simp [openPieces, Tree.piecesAll_append]

/-- What the tokens of the rest complete, if they do. -/
def completed? (groups : List OpenGroup) (done : List Tree) (rest : List Piece) :
    Option (List Piece) :=
  if openAfter (groups.map OpenGroup.delimiter) rest = some [] then
    some (openPieces groups done ++ rest)
  else none

/-- Trees that were read stand in the tokens before the rest. -/
theorem completed?_append (groups : List OpenGroup) (done trees : List Tree) (rest : List Piece) :
    completed? groups done (Tree.piecesAll trees ++ rest) =
      completed? groups (trees.reverse ++ done) rest := by
  rw [completed?, completed?, openAfter_append, openAfter_piecesAll, Option.bind_some,
    openPieces_append, List.append_assoc]

/-- What was read before a group is kept while it is open. -/
theorem completed?_opened (groups : List OpenGroup) (done : List Tree) (line : Nat)
    (delimiter : Delimiter) (rest : List Piece) :
    completed? groups done (.opened delimiter :: rest) =
      completed? (⟨line, delimiter, done⟩ :: groups) [] rest := by
  have opening : openAfter (groups.map OpenGroup.delimiter) (.opened delimiter :: rest) =
      openAfter (delimiter :: groups.map OpenGroup.delimiter) rest := by
    cases groups <;> rfl
  rw [completed?, completed?, opening, List.map_cons, openPieces, List.reverse_nil, Tree.piecesAll,
    List.append_assoc, List.cons_append, List.nil_append]

/-- A group that is closed is one tree of the group around it. -/
theorem completed?_closed (group : OpenGroup) (outer : List OpenGroup) (done : List Tree)
    (line : Nat) (rest : List Piece) :
    completed? (group :: outer) done (.closed group.delimiter :: rest) =
      completed? outer (.group group.line line group.delimiter done.reverse :: group.before)
        rest := by
  have closing : openAfter ((group :: outer).map OpenGroup.delimiter)
      (.closed group.delimiter :: rest) = openAfter (outer.map OpenGroup.delimiter) rest := by
    simp [openAfter, Piece.openAfter]
  rw [completed?, completed?, closing, openPieces_cons, openPieces, Tree.pieces]
  simp only [List.append_assoc, List.cons_append, List.nil_append]

/-- A delimiter that closes none of the open groups completes nothing. -/
theorem completed?_stray {groups : List OpenGroup} {delimiter : Delimiter}
    (stray : ∀ innermost ∈ groups.head?, innermost.delimiter ≠ delimiter) (done : List Tree)
    (rest : List Piece) : completed? groups done (.closed delimiter :: rest) = none := by
  have closing : openAfter (groups.map OpenGroup.delimiter) (.closed delimiter :: rest) = none := by
    cases groups with
    | nil => rfl
    | cons innermost outer => simp [openAfter, Piece.openAfter, stray innermost rfl]
  rw [completed?, closing, if_neg (by simp)]

section

variable {c : Char} {rest after : List Char} {first : List Piece} (visible : ¬ isSpace c = true)

include visible

/-- A text is cut into its first piece and what comes after. -/
theorem cutWithin_cons (cut : cutFirst? c rest = some (first, after)) (steps : Nat) :
    cutWithin (steps + 1) (c :: rest) = (cutWithin steps after).map (first ++ ·) := by
  rw [cutWithin, if_neg visible, cut, Option.bind_some]

/-- What is done with the pieces of a text is done with its first one and the others. -/
theorem bind_cutWithin (cut : cutFirst? c rest = some (first, after)) (steps : Nat)
    (goesOn : List Piece → Option (List Piece)) :
    (cutWithin (steps + 1) (c :: rest)).bind goesOn =
      (cutWithin steps after).bind fun later => goesOn (first ++ later) := by
  rw [cutWithin_cons visible cut, Option.bind_map]
  rfl

/-- A text whose beginning cannot be cut cannot be cut. -/
theorem cutWithin_cons_eq_none (cut : cutFirst? c rest = none) (steps : Nat) :
    cutWithin (steps + 1) (c :: rest) = none := by
  rw [cutWithin, if_neg visible, cut, Option.bind_none]

end

/-- A comment has no pieces. -/
theorem cutFirst?_of_comment {c : Char} {rest after : List Char}
    (comment : plainComment? (c :: rest) = some after) : cutFirst? c rest = some ([], after) := by
  rw [cutFirst?, comment]

section

variable {c : Char} {rest after text : List Char} {inner : Bool} {delimiter : Delimiter}
  (plain : plainComment? (c :: rest) = none)

include plain

/-- A comment that documents and has a bare carriage return cannot be cut. -/
theorem cutFirst?_of_bareReturn (documents : docComment? (c :: rest) = some (text, inner, after))
    (bare : hasBareReturn text = true) : cutFirst? c rest = none := by
  rw [cutFirst?, plain, documents]
  exact if_pos bare

/-- A comment that documents has the pieces of its attribute. -/
theorem cutFirst?_of_docComment (documents : docComment? (c :: rest) = some (text, inner, after))
    (whole : ¬ hasBareReturn text = true) :
    cutFirst? c rest = some (Tree.piecesAll (docAttribute 0 text inner), after) := by
  rw [cutFirst?, plain, documents]
  exact if_neg whole

variable (undocumented : docComment? (c :: rest) = none)

include undocumented

/-- A sign that opens a group is a piece. -/
theorem cutFirst?_of_opened (opened : opened? (c :: rest) = some delimiter) :
    cutFirst? c rest = some ([.opened delimiter], rest) := by
  rw [cutFirst?, plain, undocumented, opened]

variable (notOpened : opened? (c :: rest) = none)

include notOpened

/-- A sign that closes a group is a piece. -/
theorem cutFirst?_of_closed (closed : Delimiter.ofClosing? c = some delimiter) :
    cutFirst? c rest = some ([.closed delimiter], rest) := by
  rw [cutFirst?, plain, undocumented, notOpened, closed]

/-- Anything else is a leaf. -/
theorem cutFirst?_eq_leaf? (notClosed : Delimiter.ofClosing? c = none) (line : Nat) :
    cutFirst? c rest = (leaf? line (c :: rest)).map fun (tree, after) => (tree.pieces, after) := by
  rw [leaf?_pieces, cutFirst?, plain, undocumented, notOpened, notClosed]

end

/-- **Reading is cutting and closing.** -/
theorem read_eq (steps line : Nat) (cs : List Char) (groups : List OpenGroup) (done : List Tree) :
    (read steps line cs groups done).toOption.map Tree.piecesAll =
      (cutWithin steps cs).bind (completed? groups done) := by
  fun_induction read steps line cs groups done with
  | case1 => simp [cutWithin, completed?, openAfter, openPieces, Except.toOption]
  | case2 => simp [cutWithin, completed?, openAfter, Except.toOption]
  | case3 => rfl
  | case4 steps line c rest groups done blank ih =>
      rw [cutWithin, if_pos blank]
      exact ih
  | case5 steps line c rest groups done visible after comment ih =>
      rw [ih, bind_cutWithin visible (cutFirst?_of_comment comment)]
      rfl
  | case6 steps line c rest groups done visible plain text inner after documents bare =>
      rw [cutWithin_cons_eq_none visible (cutFirst?_of_bareReturn plain documents bare)]
      rfl
  | case7 steps line c rest groups done visible plain text inner after documents bare ih =>
      have cut := cutFirst?_of_docComment plain documents bare
      rw [← docAttribute_pieces line] at cut
      rw [ih, bind_cutWithin visible cut]
      simp only [completed?_append]
  | case8 steps line c rest groups done visible plain undocumented delimiter opened ih =>
      rw [ih, bind_cutWithin visible (cutFirst?_of_opened plain undocumented opened)]
      simp only [List.singleton_append, completed?_opened groups done line]
  | case9 steps line c rest done visible plain undocumented group outer notOpened closed ih =>
      rw [ih, bind_cutWithin visible (cutFirst?_of_closed plain undocumented notOpened closed)]
      simp only [List.singleton_append, completed?_closed group outer done line]
  | case10 steps line c rest done visible plain undocumented delimiter group outer closed notOpened
      other =>
      have stray : ∀ innermost ∈ (group :: outer).head?, innermost.delimiter ≠ delimiter := by
        rintro innermost ⟨⟩
        exact other
      rw [bind_cutWithin visible (cutFirst?_of_closed plain undocumented notOpened closed)]
      simp only [List.singleton_append, completed?_stray stray]
      simp [Except.toOption]
  | case11 steps line c rest done visible plain undocumented delimiter closed notOpened =>
      have stray : ∀ innermost ∈ ([] : List OpenGroup).head?, innermost.delimiter ≠ delimiter := by
        rintro innermost ⟨⟩
      rw [bind_cutWithin visible (cutFirst?_of_closed plain undocumented notOpened closed)]
      simp only [List.singleton_append, completed?_stray stray]
      simp [Except.toOption]
  | case12 steps line c rest groups done visible plain undocumented notClosed notOpened tree after
      leaf ih =>
      have cut := cutFirst?_eq_leaf? plain undocumented notOpened notClosed line
      rw [leaf, Option.map_some] at cut
      rw [ih, bind_cutWithin visible cut]
      simp only [← Tree.piecesAll_singleton, completed?_append, List.reverse_singleton,
        List.singleton_append]
  | case13 steps line c rest groups done visible plain undocumented notClosed notOpened leaf =>
      have cut := cutFirst?_eq_leaf? plain undocumented notOpened notClosed line
      rw [leaf, Option.map_none] at cut
      rw [cutWithin_cons_eq_none visible cut]
      rfl

/-! ## Line by line -/

/-- More steps do not matter. -/
theorem cutWithin_mono {steps enough : Nat} {cs : List Char} {pieces : List Piece}
    (cut : cutWithin steps cs = some pieces) (le : steps ≤ enough) :
    cutWithin enough cs = some pieces := by
  induction steps generalizing enough cs pieces with
  | zero =>
      cases cs with
      | nil => rw [cutWithin] at cut ⊢; exact cut
      | cons => cases cut
  | succ steps ih =>
      cases cs with
      | nil => rw [cutWithin] at cut ⊢; exact cut
      | cons c rest =>
          obtain ⟨enough, rfl⟩ := Nat.exists_eq_succ_of_ne_zero
            (Nat.ne_of_gt (Nat.lt_of_lt_of_le steps.succ_pos le))
          have le := Nat.le_of_succ_le_succ le
          rw [cutWithin] at cut ⊢
          split at cut
          next blank =>
            rw [if_pos blank]
            exact ih cut le
          next visible =>
            rw [if_neg visible]
            obtain ⟨⟨first, after⟩, found, later⟩ := Option.bind_eq_some_iff.mp cut
            obtain ⟨others, tail, same⟩ := Option.map_eq_some_iff.mp later
            rw [found]
            exact Option.map_eq_some_iff.mpr ⟨others, ih tail le, same⟩

/-- Blanks in front are not read. -/
theorem cutWithin_blanks {steps : Nat} (blanks : List Char) {cs : List Char} {pieces : List Piece}
    (blank : ∀ c ∈ blanks, isSpace c = true) (cut : cutWithin steps cs = some pieces) :
    cutWithin (blanks.length + steps) (blanks ++ cs) = some pieces := by
  induction blanks with
  | nil => rwa [List.length_nil, Nat.zero_add]
  | cons c rest ih =>
      obtain ⟨first, later⟩ := List.forall_mem_cons.mp blank
      rw [List.length_cons, Nat.add_right_comm, List.cons_append, cutWithin, if_pos first]
      exact ih later

/-- What starts a comment that is not closed cannot be cut. -/
theorem startsComment_eq_false {c : Char} {rest : List Char} {cut : List Piece × List Char}
    (plain : plainComment? (c :: rest) = none) (undocumented : docComment? (c :: rest) = none)
    (found : cutFirst? c rest = some cut) : startsComment (c :: rest) = false := by
  refine Bool.eq_false_iff.mpr fun starts => ?_
  have leaf := leaf?_eq_none_of_startsComment starts 0
  obtain rfl := head_of_startsComment starts
  have notOpened : opened? ('/' :: rest) = none := by
    rw [opened?, failureMark_eq_false (by decide)]
    rfl
  rw [cutFirst?_eq_leaf? plain undocumented notOpened (by decide) 0, leaf] at found
  cases found

/-- **The first tokens of a line.** They do not depend on what comes after the line. -/
theorem cutFirst?_keeps {c : Char} {rest more after : List Char} {first : List Piece}
    (ends : EndsLine more) (cut : cutFirst? c rest = some (first, after)) :
    ∃ behind, cutFirst? c (rest ++ more) = some (first, behind) ∧ Resumes after more behind := by
  cases plain : plainComment? (c :: rest) with
  | some comment =>
      rw [cutFirst?_of_comment plain] at cut
      cases cut
      obtain ⟨behind, comment, resumes⟩ := plainComment?_keeps ends plain
      exact ⟨behind, cutFirst?_of_comment comment, resumes⟩
  | none =>
      cases documents : docComment? (c :: rest) with
      | some found =>
          obtain ⟨text, inner, comment⟩ := found
          by_cases bare : hasBareReturn text = true
          · rw [cutFirst?_of_bareReturn plain documents bare] at cut
            cases cut
          · rw [cutFirst?_of_docComment plain documents bare] at cut
            cases cut
            obtain ⟨behind, kept, resumes⟩ :=
              docComment?_keeps ends documents (Bool.eq_false_iff.mpr bare)
            have plain' := plainComment?_eq_none_of_docComment? (by rw [kept]; rfl)
            exact ⟨behind, cutFirst?_of_docComment plain' kept bare, resumes⟩
      | none =>
          have other := startsComment_eq_false plain documents cut
          rw [← startsComment_append ends, List.cons_append] at other
          obtain ⟨plain', documents'⟩ := comment?_eq_none other
          have opening := opened?_append ends c rest
          cases opened : opened? (c :: rest) with
          | some delimiter =>
              rw [cutFirst?_of_opened plain documents opened] at cut
              cases cut
              exact ⟨_, cutFirst?_of_opened plain' documents' (opening.trans opened), .inl rfl⟩
          | none =>
              cases closed : Delimiter.ofClosing? c with
              | some delimiter =>
                  rw [cutFirst?_of_closed plain documents opened closed] at cut
                  cases cut
                  exact ⟨_, cutFirst?_of_closed plain' documents' (opening.trans opened) closed,
                    .inl rfl⟩
              | none =>
                  rw [cutFirst?_eq_leaf? plain documents opened closed 0] at cut
                  obtain ⟨⟨tree, _⟩, leaf, same⟩ := Option.map_eq_some_iff.mp cut
                  cases same
                  have kept := leaf?_keeps ends leaf
                  rw [List.cons_append] at kept
                  refine ⟨after ++ more, ?_, .inl rfl⟩
                  rw [cutFirst?_eq_leaf? plain' documents' (opening.trans opened) closed 0, kept]
                  rfl

/-- What ends a line. -/
def IsLineEnd (ending : List Char) : Prop :=
  ending = ['\n'] ∨ ending = ['\r', '\n']

/-- The end of a line ends it in front of anything. -/
theorem IsLineEnd.endsLine {ending : List Char} (isEnd : IsLineEnd ending) (rest : List Char) :
    EndsLine (ending ++ rest) := by
  obtain rfl | rfl := isEnd
  · exact .feed rest
  · exact .carriageReturn rest

/-- The end of a line is blank. -/
theorem IsLineEnd.isSpace {ending : List Char} (isEnd : IsLineEnd ending) :
    ∀ c ∈ ending, isSpace c = true := by
  obtain rfl | rfl := isEnd
  · exact List.forall_mem_singleton.mpr (by decide)
  · exact List.forall_mem_cons.mpr ⟨by decide, List.forall_mem_singleton.mpr (by decide)⟩

/-- **Lines are cut one by one.** -/
theorem cutWithin_append {steps more : Nat} {line ending rest : List Char}
    {pieces others : List Piece} (isEnd : IsLineEnd ending)
    (early : cutWithin steps line = some pieces) (late : cutWithin more rest = some others) :
    cutWithin (steps + (ending.length + more)) (line ++ (ending ++ rest)) =
      some (pieces ++ others) := by
  have next := cutWithin_blanks ending isEnd.isSpace late
  induction steps generalizing line pieces with
  | zero =>
      cases line with
      | nil =>
          cases early
          rwa [Nat.zero_add]
      | cons => cases early
  | succ steps ih =>
      cases line with
      | nil =>
          cases early
          exact cutWithin_mono next (Nat.le_add_left _ _)
      | cons c line =>
          rw [Nat.add_right_comm, List.cons_append]
          rw [cutWithin] at early
          split at early
          next blank =>
            rw [cutWithin, if_pos blank]
            exact ih early
          next visible =>
            obtain ⟨⟨first, after⟩, cut, later⟩ := Option.bind_eq_some_iff.mp early
            obtain ⟨tail, read, rfl⟩ := Option.map_eq_some_iff.mp later
            obtain ⟨behind, cut, resumes⟩ := cutFirst?_keeps (isEnd.endsLine rest) cut
            rw [cutWithin_cons visible cut, List.append_assoc]
            refine Option.map_eq_some_iff.mpr ⟨tail ++ others, ?_, rfl⟩
            obtain rfl | ⟨rfl, same⟩ := resumes
            · exact ih read
            · -- A comment has taken in the carriage return, and the line feed is still to come.
              obtain rfl | rfl := isEnd
              · cases same
              · cases same
                rw [cutWithin, Option.some.injEq] at read
                subst read
                have next : cutWithin (1 + more) ('\n' :: rest) = some others :=
                  cutWithin_blanks ['\n'] (List.forall_mem_singleton.mpr (by decide)) late
                exact cutWithin_mono next (by simp only [List.length_cons, List.length_nil]; omega)

/-- The tokens of lines that are cut one by one. -/
def cutLines? : List (List Char) → Option (List Piece)
  | [] => some []
  | line :: rest => (cut? line).bind fun pieces => (cutLines? rest).map (pieces ++ ·)

/-- Lines are cut one by one. -/
theorem cutLines?_cons_eq_some_iff {line : List Char} {rest : List (List Char)}
    {pieces : List Piece} : cutLines? (line :: rest) = some pieces ↔
      ∃ first others, cut? line = some first ∧ cutLines? rest = some others ∧
        first ++ others = pieces := by
  simp only [cutLines?, Option.bind_eq_some_iff, Option.map_eq_some_iff, exists_and_left]

/-- Lines are cut in two parts as they are together. -/
theorem cutLines?_append {lines others : List (List Char)} {early late : List Piece}
    (first : cutLines? lines = some early) (second : cutLines? others = some late) :
    cutLines? (lines ++ others) = some (early ++ late) := by
  induction lines generalizing early with
  | nil =>
      cases first
      exact second
  | cons line rest ih =>
      obtain ⟨own, more, cut, later, rfl⟩ := cutLines?_cons_eq_some_iff.mp first
      rw [List.append_assoc]
      exact cutLines?_cons_eq_some_iff.mpr ⟨own, _, cut, ih later, rfl⟩

/-- Lines that are written one below the other are cut one by one. -/
theorem cut?_flatMap {lines : List (List Char)} {pieces : List Piece}
    (cut : cutLines? lines = some pieces) : cut? (lines.flatMap (· ++ ['\n'])) = some pieces := by
  induction lines generalizing pieces with
  | nil => exact cut
  | cons line rest ih =>
      obtain ⟨first, others, early, later, rfl⟩ := cutLines?_cons_eq_some_iff.mp cut
      have joined := cutWithin_append (.inl rfl) early (ih later)
      rw [← List.length_append, ← List.length_append] at joined
      rw [List.flatMap_cons, List.append_assoc]
      exact joined

end Lexer

namespace Text

/-- A text is its first line, the end of that, and the rest. -/
theorem exists_line {text : List Char} (nonempty : text ≠ []) :
    ∃ line ending rest, text = line ++ (ending ++ rest) ∧ lines text = line :: lines rest ∧
      (Lexer.IsLineEnd ending ∨ ending = [] ∧ rest = []) := by
  induction text with
  | nil => exact absurd rfl nonempty
  | cons c later ih =>
      by_cases feed : c = '\n'
      · subst feed
        exact ⟨[], ['\n'], later, rfl, rfl, .inl (.inl rfl)⟩
      by_cases split : c = '\r' ∧ later.head? = some '\n'
      · obtain ⟨rfl, next⟩ := split
        obtain ⟨rest, rfl⟩ := List.head?_eq_some_iff.mp next
        exact ⟨[], ['\r', '\n'], rest, rfl, rfl, .inl (.inr rfl)⟩
      have lines_eq : lines (c :: later) = (c :: (lines later).headD []) :: (lines later).tail :=
        lines_cons feed fun isReturn next => split ⟨isReturn, next⟩
      cases later with
      | nil => exact ⟨[c], [], [], rfl, lines_eq, .inr ⟨rfl, rfl⟩⟩
      | cons d later =>
          obtain ⟨line, ending, rest, same, cut, isEnd⟩ := ih (List.cons_ne_nil _ _)
          refine ⟨c :: line, ending, rest, congrArg (c :: ·) same, ?_, isEnd⟩
          rw [lines_eq, cut]
          rfl

end Text

namespace Lexer

/-- **A text that can be cut line by line.** Its tokens are those of its lines. -/
theorem cut?_of_lines {text : List Char} {pieces : List Piece}
    (cut : cutLines? (Text.lines text) = some pieces) : cut? text = some pieces := by
  generalize size : text.length = n
  induction n using Nat.strong_induction_on generalizing text pieces with
  | _ n ih =>
      by_cases nonempty : text = []
      · subst nonempty
        exact cut
      obtain ⟨line, ending, rest, rfl, lines_eq, isEnd⟩ := Text.exists_line nonempty
      rw [lines_eq] at cut
      obtain ⟨first, others, early, later, rfl⟩ := cutLines?_cons_eq_some_iff.mp cut
      obtain isEnd | ⟨rfl, rfl⟩ := isEnd
      · have shorter : rest.length < n := by
          have : 0 < ending.length := by obtain rfl | rfl := isEnd <;> decide
          simp only [List.length_append] at size
          omega
        have joined := cutWithin_append isEnd early (ih _ shorter later rfl)
        rwa [← List.length_append, ← List.length_append] at joined
      · cases later
        rw [List.append_nil, List.append_nil]
        simpa using early

end Lexer

/-! ## Whole texts -/

/-- **The tokens of a text.** They are what the text is cut into, if all groups are closed. -/
theorem tokens?_eq_some_iff {text : String} {pieces : List Piece} :
    tokens? text = some pieces ↔
      Lexer.cut? text.toList = some pieces ∧ openAfter [] pieces = some [] := by
  rw [tokens?, Lexer.read_eq, Lexer.cut?]
  cases Lexer.cutWithin text.toList.length text.toList with
  | none => simp
  | some found =>
      have nothing : Lexer.openPieces [] [] = [] := rfl
      rw [Option.bind_some, Lexer.completed?, List.map_nil, nothing, List.nil_append,
        Option.some.injEq]
      split
      next complete =>
        rw [Option.some.injEq]
        exact ⟨fun same => ⟨same, same ▸ complete⟩, And.left⟩
      next open_ =>
        refine ⟨fun same => (nomatch same), fun ⟨same, complete⟩ => absurd complete ?_⟩
        rwa [← same]

/-- The tokens of texts one after the other, if each of them makes sense. -/
def tokensAll? : List String → Option (List Piece)
  | [] => some []
  | text :: rest => (tokens? text).bind fun pieces => (tokensAll? rest).map (pieces ++ ·)

/-- Texts are cut one by one. -/
theorem tokensAll?_cons_eq_some_iff {text : String} {rest : List String} {pieces : List Piece} :
    tokensAll? (text :: rest) = some pieces ↔
      ∃ own others, tokens? text = some own ∧ tokensAll? rest = some others ∧
        own ++ others = pieces := by
  simp only [tokensAll?, Option.bind_eq_some_iff, Option.map_eq_some_iff, exists_and_left]

/-- Texts that make sense close all groups that they open, wherever they stand. -/
theorem openAfter_tokensAll? {texts : List String} {pieces : List Piece}
    (read : tokensAll? texts = some pieces) (groups : List Delimiter) :
    openAfter groups pieces = some groups := by
  induction texts generalizing pieces with
  | nil =>
      cases read
      rfl
  | cons text rest ih =>
      obtain ⟨own, others, first, later, rfl⟩ := tokensAll?_cons_eq_some_iff.mp read
      have closed := openAfter_inside (tokens?_eq_some_iff.mp first).2 groups
      rw [List.nil_append] at closed
      rw [openAfter_append, closed, Option.bind_some, ih later]

/-- Texts that are cut by themselves are cut as lines. -/
theorem cutLines?_of_tokensAll? {texts : List String} {pieces : List Piece}
    (read : tokensAll? texts = some pieces) :
    Lexer.cutLines? (texts.map String.toList) = some pieces := by
  induction texts generalizing pieces with
  | nil => exact read
  | cons text rest ih =>
      obtain ⟨own, others, first, later, rfl⟩ := tokensAll?_cons_eq_some_iff.mp read
      exact Lexer.cutLines?_cons_eq_some_iff.mpr
        ⟨own, others, (tokens?_eq_some_iff.mp first).1, ih later, rfl⟩

end VariantMerge
