import VariantMerge.Grammar.Basic
import VariantMerge.Proofs.Grammar.Yields
import VariantMerge.Proofs.Token.Readings

/-!
# Running parsers on tokens

`Parser.Runs` says what a parser does when it is started on the trees of some tokens: it reads a value
and stops at the trees of others. What a parser sees ahead of it is told from the tokens as well
(`Parser.Shows`). There is one lemma for each way to build a parser, so a run follows the definition of
the grammar.
-/

namespace VariantMerge

namespace Token

variable {line : Nat} {rest : List Token}

/-- An operator has one tree for each of its characters. -/
theorem opTrees_drop (joint : Bool) (cs : List Char) (rest : List Tree) :
    (opTrees line joint cs rest).drop cs.length = rest := by
  fun_induction opTrees line joint cs rest with
  | case1 => rfl
  | case2 => rfl
  | case3 c cs rest some_ ih => exact ih

/-- The trees of an operator are as many as its characters. -/
theorem length_opTrees (joint : Bool) (cs : List Char) (rest : List Tree) :
    (opTrees line joint cs rest).length = cs.length + rest.length := by
  fun_induction opTrees line joint cs rest with
  | case1 => simp
  | case2 => simp [Nat.add_comm]
  | case3 c cs rest some_ ih => simp only [List.length_cons, ih]; omega

/-- There are no fewer trees if tokens are put in front. -/
theorem length_trees_append (front back : List Token) (line : Nat) :
    ∃ next, (trees next back).length ≤ (trees line (front ++ back)).length := by
  induction front generalizing line with
  | nil => exact ⟨line, le_rfl⟩
  | cons token front ih =>
      obtain ⟨next, shorter⟩ := ih (line + token.feeds)
      refine ⟨next, shorter.trans ?_⟩
      rw [List.cons_append, trees, treesOnto_append, List.length_append]
      exact Nat.le_add_left _ _

end Token

namespace Parser

variable {α β : Type} {p : Parser α} {f : α → Parser β} {input middle output : List Token} {a : α}
  {b : β}

/-- Started on the trees of the first tokens, the parser reads this value and stops at the trees of
the others. -/
def Runs (p : Parser α) (input output : List Token) (a : α) : Prop :=
  ∀ line endLine leftOver, ∃ next,
    p ⟨Token.trees line input, endLine, leftOver⟩ = .ok (a, ⟨Token.trees next output, endLine, leftOver⟩)

/-- What a condition on the trees ahead says about tokens. -/
def Shows (condition : List Tree → Bool) (input : List Token) (found : Bool) : Prop :=
  ∀ line, condition (Token.trees line input) = found

/-! ## Operators ahead -/

/-- The trees of an operator begin with its characters. -/
theorem startsChars_opTrees {cs : List Char} (some_ : cs ≠ []) (line : Nat) (joint : Bool)
    (rest : List Tree) : startsChars cs (Token.opTrees line joint cs rest) = true := by
  fun_induction Token.opTrees line joint cs rest with
  | case1 => exact absurd rfl some_
  | case2 => simp [startsChars]
  | case3 c cs rest more ih =>
      obtain ⟨d, others, rfl⟩ := List.exists_cons_of_ne_nil more
      rw [startsChars]
      · simp [ih (List.cons_ne_nil d others)]
      · exact List.cons_ne_nil d others

/-- Trees that begin with an operator show it. -/
theorem startsOp_self {text : String} (some_ : text.toList ≠ []) :
    Shows (startsOp text) (.op text :: input) true :=
  fun line => by rw [startsOp, Token.trees_op, startsChars_opTrees some_]

namespace Runs

/-- Nothing is read for a value that is there. -/
theorem pure : Runs (pure a : Parser α) input input a :=
  fun line _ _ => ⟨line, rfl⟩

/-- Two parsers run one after the other. -/
theorem bind (first : Runs p input middle a) (next : Runs (f a) middle output b) :
    Runs (p >>= f) input output b := by
  intro line endLine leftOver
  obtain ⟨between, here⟩ := first line endLine leftOver
  obtain ⟨last, later⟩ := next between endLine leftOver
  exact ⟨last, bind_eq_ok_iff.mpr ⟨a, _, here, later⟩⟩

/-- A bind with the value and the place in between named. -/
theorem through (a : α) (middle : List Token) (first : Runs p input middle a)
    (next : Runs (f a) middle output b) : Runs (p >>= f) input output b :=
  bind first next

/-- A place that is looked at again later. -/
theorem get_trees {f : Cursor → Parser β} (next : ∀ line endLine leftOver,
    Runs (f ⟨Token.trees line input, endLine, leftOver⟩) input output b) :
    Runs (get >>= f) input output b :=
  fun line endLine leftOver => next line endLine leftOver line endLine leftOver

/-- The place in the input may be asked for, whatever it is. -/
theorem get {f : Cursor → Parser β} (next : ∀ cursor, Runs (f cursor) input output b) :
    Runs (get >>= f) input output b :=
  fun line endLine leftOver => next _ line endLine leftOver

/-- A look ahead reads nothing. -/
theorem looks {condition : List Tree → Bool} {found : Bool} (shows : Shows condition input found) :
    Runs (looks condition) input input found :=
  fun line _ _ => ⟨line, by rw [← shows line]; rfl⟩

/-- What is seen ahead decides how to go on. -/
theorem look {condition : List Tree → Bool} {found : Bool} {f : Bool → Parser β}
    (shows : Shows condition input found) (next : Runs (f found) input output b) :
    Runs (Parser.looks condition >>= f) input output b :=
  bind (looks shows) next

/-- It goes on with what is ahead. -/
theorem look_true {condition : List Tree → Bool} {f : Bool → Parser β}
    (shows : Shows condition input true) (next : Runs (f true) input output b) :
    Runs (Parser.looks condition >>= f) input output b :=
  look shows next

/-- It goes on without what is not ahead. -/
theorem look_false {condition : List Tree → Bool} {f : Bool → Parser β}
    (shows : Shows condition input false) (next : Runs (f false) input output b) :
    Runs (Parser.looks condition >>= f) input output b :=
  look shows next

/-- Looking ahead where the answer does not matter. -/
theorem look_any {condition : List Tree → Bool} {f : Bool → Parser β}
    (next : ∀ found, Runs (f found) input output b) : Runs (Parser.looks condition >>= f) input output b :=
  fun line endLine leftOver => next _ line endLine leftOver

/-- The number of trees ahead may be asked for, whatever their lines are. -/
theorem measured {f : List Tree → Parser β}
    (next : ∀ line, Runs (f (Token.trees line input)) input output b) :
    Runs (ahead >>= f) input output b :=
  fun line endLine leftOver => next line line endLine leftOver

/-- An operator that is there is read. -/
theorem op {text : String} (some_ : text.toList ≠ []) :
    Runs (op text) (.op text :: output) output () := by
  intro line endLine leftOver
  refine ⟨line, bind_eq_ok_iff.mpr ⟨_, _, rfl, ?_⟩⟩
  rw [if_pos (startsOp_self some_ line), Token.trees_op]
  change Except.ok ((), (⟨List.drop text.length _, endLine, leftOver⟩ : Cursor)) = _
  rw [← String.length_toList, Token.opTrees_drop]

/-- An operator that may be missing is read if it is there. -/
theorem op?_taken {text : String} (some_ : text.toList ≠ []) :
    Runs (op? text) (.op text :: output) output true :=
  look (startsOp_self some_) (bind (op some_) pure)

/-- Nothing is read if it is not there. -/
theorem op?_absent {text : String} (shows : Shows (startsOp text) input false) :
    Runs (op? text) input input false :=
  look shows pure

/-- Trees that begin with a word show it. -/
theorem startsWord_self {text : String} (named : Token.isName text = true) :
    Shows (startsWord text) (.word text :: input) true :=
  fun line => by rw [Token.trees_name named]; exact beq_self_eq_true text

/-- A keyword that is there is read. -/
theorem keyword {text : String} (named : Token.isName text = true) :
    Runs (keyword text) (.word text :: output) output () := by
  intro line endLine leftOver
  refine ⟨line + text.toList.count '\n', bind_eq_ok_iff.mpr ⟨_, _, rfl, ?_⟩⟩
  rw [if_pos (startsWord_self named line), Token.trees_name named]
  rfl

/-- A keyword that may be missing is read if it is there. -/
theorem keyword?_taken {text : String} (named : Token.isName text = true) :
    Runs (keyword? text) (.word text :: output) output true :=
  look (startsWord_self named) (bind (keyword named) pure)

/-- Nothing is read if it is not there. -/
theorem keyword?_absent {text : String} (shows : Shows (startsWord text) input false) :
    Runs (keyword? text) input input false :=
  look shows pure

/-- Any word that is there is read. -/
theorem anyWord {text : String} (named : Token.isName text = true) :
    Runs anyWord (.word text :: output) output text := by
  intro line endLine leftOver
  refine ⟨line + text.toList.count '\n', bind_eq_ok_iff.mpr ⟨_, _, rfl, ?_⟩⟩
  rw [Token.trees_name named]
  dsimp only
  rw [if_pos (Token.isNameText_of_isName named)]
  rfl

/-- A name that is there is read, if it is no keyword. -/
theorem name {text : String} (named : Token.isName text = true)
    (free : keywords.contains text = false) : Runs name (.word text :: output) output text :=
  look_true (fun line => by rw [Token.trees_name named, startsName, free]; rfl)
    (anyWord named)

/-- A lifetime that is there is read. -/
theorem lifetime {name : String} : Runs lifetime (.lifetime name :: output) output name :=
  fun line _ _ => ⟨line + (Token.lifetime name).feeds, rfl⟩

/-- A lifetime that may be missing is read if it is there. -/
theorem lifetime?_taken {name : String} :
    Runs lifetime? (.lifetime name :: output) output (some name) :=
  look (fun _ => rfl) (bind lifetime pure)

/-- Nothing is read if there is no lifetime. -/
theorem lifetime?_absent (shows : Shows startsLifetime input false) :
    Runs lifetime? input input none :=
  look shows pure

/-- A group is read if all of what is inside is. -/
theorem group {delimiter : Delimiter} {inner : List Token} (inside : Runs p inner [] a) :
    Runs (group delimiter p) (.group delimiter inner :: output) output a := by
  intro line endLine leftOver
  obtain ⟨next, here⟩ := inside line (line + Token.feedsAll inner) leftOver
  refine ⟨line + Token.feedsAll inner, bind_eq_ok_iff.mpr ⟨_, _, rfl, ?_⟩⟩
  rw [Token.trees, Token.treesOnto]
  dsimp only
  rw [if_pos (beq_self_eq_true delimiter)]
  refine bind_eq_ok_iff.mpr ⟨a, ⟨.group line (line + Token.feedsAll inner) delimiter
    (Token.trees line inner) :: Token.trees (line + Token.feedsAll inner) output, endLine,
    leftOver⟩, ?_, rfl⟩
  unfold within
  rw [here]
  cases leftOver <;> rfl

/-! ## Choices and steps at the front -/

/-- The other side of a branch is taken. -/
theorem no {q : Parser α} (other : Runs q input output a) :
    Runs (if false = true then p else q) input output a :=
  other

/-- An operator is read, and then the rest. -/
theorem take_op {text : String} {f : Unit → Parser β} (some_ : text.toList ≠ [])
    (next : Runs (f ()) middle output b) :
    Runs (Parser.op text >>= f) (.op text :: middle) output b :=
  bind (op some_) next

/-- An operator that is there is read, and then the rest. -/
theorem take_op? {text : String} {f : Bool → Parser β} (some_ : text.toList ≠ [])
    (next : Runs (f true) middle output b) :
    Runs (Parser.op? text >>= f) (.op text :: middle) output b :=
  bind (op?_taken some_) next

/-- An operator that is not there is passed over. -/
theorem skip_op? {text : String} {f : Bool → Parser β} (shows : Shows (startsOp text) input false)
    (next : Runs (f false) input output b) : Runs (Parser.op? text >>= f) input output b :=
  bind (op?_absent shows) next

/-- A keyword is read, and then the rest. -/
theorem take_keyword {text : String} {f : Unit → Parser β} (named : Token.isName text = true)
    (next : Runs (f ()) middle output b) :
    Runs (Parser.keyword text >>= f) (.word text :: middle) output b :=
  bind (keyword named) next

/-- A keyword that is there is read, and then the rest. -/
theorem take_keyword? {text : String} {f : Bool → Parser β} (named : Token.isName text = true)
    (next : Runs (f true) middle output b) :
    Runs (Parser.keyword? text >>= f) (.word text :: middle) output b :=
  bind (keyword?_taken named) next

/-- A keyword that is not there is passed over. -/
theorem skip_keyword? {text : String} {f : Bool → Parser β}
    (shows : Shows (startsWord text) input false) (next : Runs (f false) input output b) :
    Runs (Parser.keyword? text >>= f) input output b :=
  bind (keyword?_absent shows) next

/-! ## Repetition -/

section Rounds

variable {more : List Tree → Bool} {part : Parser α} {count : Nat} {items : List α}

/-- No item is read if there are no more. -/
theorem manyFrom_stop (last : Shows more input false) :
    Runs (manyFrom more part (count + 1)) input input [] :=
  .look last pure

/-- One item is read, and then the others. -/
theorem manyFrom_step (goesOn : Shows more input true) (one : Runs part input middle a)
    (others : Runs (manyFrom more part count) middle output items) :
    Runs (manyFrom more part (count + 1)) input output (a :: items) :=
  .look goesOn (.bind one (.bind others pure))

end Rounds

section Repetition

variable {stop : List Tree → Bool} {separator : String} {tokens : α → List Token} {items : List α}
  {trailing : Bool}

/-- A list of items has as many trees as items, up to one without a separator behind it, so the
number of trees is fuel enough. -/
theorem length_separated (some_ : separator.toList ≠ []) (tokens : α → List Token) (items : List α)
    (trailing : Bool) (output : List Token) (line : Nat) :
    items.length ≤
      (Token.trees line (Token.separated separator trailing (items.map tokens) ++ output)).length + 1 ∧
    (trailing = true → items.length ≤
      (Token.trees line (Token.separated separator trailing (items.map tokens) ++ output)).length) := by
  have longer (rest : List Token) (line : Nat) :
      ∃ next, (Token.trees next rest).length + 1 ≤ (Token.trees line (.op separator :: rest)).length := by
    refine ⟨line, ?_⟩
    have positive := List.length_pos_iff.mpr some_
    rw [Token.trees_op, Token.length_opTrees]
    omega
  induction items generalizing line with
  | nil => exact ⟨Nat.zero_le _, fun _ => Nat.zero_le _⟩
  | cons item items ih =>
      cases items with
      | nil =>
          refine ⟨Nat.le_add_left _ _, fun ends => ?_⟩
          subst ends
          obtain ⟨next, shorter⟩ :=
            Token.length_trees_append (tokens item) (.op separator :: output) line
          obtain ⟨last, more⟩ := longer output next
          simp only [List.map_cons, List.map_nil, Token.separated, if_true, List.append_assoc,
            List.singleton_append, List.length_singleton]
          omega
      | cons second items =>
          obtain ⟨next, shorter⟩ := Token.length_trees_append (tokens item) (.op separator ::
            (Token.separated separator trailing ((second :: items).map tokens) ++ output)) line
          obtain ⟨last, more⟩ := longer
            (Token.separated separator trailing ((second :: items).map tokens) ++ output) next
          obtain ⟨others, othersMore⟩ := ih last
          simp only [List.map_cons, Token.separated, List.append_assoc, List.cons_append,
            List.length_cons] at shorter more others othersMore ⊢
          exact ⟨by omega, fun ends => by have := othersMore ends; omega⟩

/-- **Rounds of a loop.** A loop that reads one part and its separator in each round reads parts that
are written with separators between them. -/
theorem rounds (loop : Nat → Parser (List α × Bool)) (some_ : separator.toList ≠ [])
    (none : items = [] → ∀ count, Runs (loop (count + 1)) output output ([], trailing))
    (ends : ∀ item ∈ items, ∀ count, (trailing = true → 0 < count) → Runs (loop (count + 1))
      (tokens item ++ ((if trailing then [.op separator] else []) ++ output)) output
        ([item], trailing))
    (goesOn : ∀ item ∈ items, ∀ next ∈ items, ∀ count rest read,
      Runs (loop count) (tokens next ++ rest) output read →
        Runs (loop (count + 1)) (tokens item ++ .op separator :: (tokens next ++ rest)) output
          (item :: read.1, read.2)) (line count : Nat)
    (enough : count = (Token.trees line
      (Token.separated separator trailing (items.map tokens) ++ output)).length + 1) :
    Runs (loop count) (Token.separated separator trailing (items.map tokens) ++ output) output
      (items, trailing) := by
  have bound := length_separated some_ tokens items trailing output line
  have fits : items.length ≤ count := enough ▸ bound.1
  have fitsMore (ends : trailing = true) : items.length < count :=
    enough ▸ Nat.lt_succ_of_le (bound.2 ends)
  have some_round : 0 < count := enough ▸ Nat.succ_pos _
  clear enough bound
  induction items generalizing count with
  | nil =>
      obtain ⟨count, rfl⟩ := Nat.exists_eq_succ_of_ne_zero some_round.ne'
      exact none rfl count
  | cons item items ih =>
      obtain ⟨count, rfl⟩ := Nat.exists_eq_succ_of_ne_zero some_round.ne'
      cases items with
      | nil =>
          have last := ends item List.mem_cons_self count fun more =>
            Nat.lt_of_succ_lt_succ (fitsMore more)
          cases trailing <;> simpa [Token.separated] using last
      | cons second items =>
          obtain ⟨rest, whole⟩ : ∃ rest,
              Token.separated separator trailing ((second :: items).map tokens) ++ output =
                tokens second ++ rest := by
            cases items <;> cases trailing <;> simp [Token.separated]
          have others := ih nofun (fun item listed => ends item (List.mem_cons_of_mem _ listed))
            (fun item listed next after => goesOn item (List.mem_cons_of_mem _ listed) next
              (List.mem_cons_of_mem _ after)) count (Nat.le_of_succ_le_succ fits)
            (fun more => Nat.lt_of_succ_lt_succ (fitsMore more))
            (Nat.lt_of_lt_of_le (Nat.succ_pos _) (Nat.le_of_succ_le_succ fits))
          have step := goesOn item List.mem_cons_self second (by simp) count rest _ (whole ▸ others)
          rw [← whole] at step
          simpa [Token.separated] using step

/-- What may come after a part: the separator, or what comes after all of them. -/
def GoesOn (separator : String) (output rest : List Token) : Prop :=
  rest = output ∨ ∃ more, rest = .op separator :: more

/-- Behind the last item there is the end of the list, or its last separator. -/
theorem GoesOn.of_last (trailing : Bool) :
    GoesOn separator output ((if trailing then [.op separator] else []) ++ output) := by
  cases trailing
  · exact .inl rfl
  · exact .inr ⟨_, rfl⟩

/-- **A list up to a stop.** Items are read if each is read in front of a separator or of the end,
and none begins like the stop. -/
theorem sepUntil {part : Parser α} (some_ : separator.toList ≠ [])
    (each : ∀ item ∈ items, ∀ rest, GoesOn separator output rest →
      Runs part (tokens item ++ rest) rest item)
    (before : ∀ item ∈ items, ∀ rest, Shows stop (tokens item ++ rest) false)
    (between : ∀ rest, Shows stop (.op separator :: rest) false) (last : Shows stop output true)
    (empty : items = [] → trailing = true) :
    Runs (sepUntil stop separator part)
      (Token.separated separator trailing (items.map tokens) ++ output) output (items, trailing) := by
  intro line endLine leftOver
  refine rounds (sepUntilFrom stop separator part) some_ ?_ ?_ ?_ line _ rfl line endLine leftOver
  · intro nothing count
    rw [empty nothing]
    exact .look last pure
  · intro item listed count more
    refine .look (before item listed _) (.bind (each item listed _ (.of_last trailing)) ?_)
    cases trailing with
    | false => exact .look last pure
    | true =>
        obtain ⟨count, rfl⟩ := Nat.exists_eq_succ_of_ne_zero (more rfl).ne'
        exact .look (between _) (.take_op some_ (.bind (.look last pure) pure))
  · intro item listed next _ count rest read others
    refine .look (before item listed _) (.bind (each item listed _ (.inr ⟨_, rfl⟩)) ?_)
    exact .look (between _) (.take_op some_ (.bind others pure))

/-- **A list with separators.** Items are read if each is read in front of a separator or of the
end, and what follows is no separator. -/
theorem sepWhile {part : Parser α} (some_ : separator.toList ≠ [])
    (each : ∀ item ∈ items, ∀ rest, GoesOn separator output rest →
      Runs part (tokens item ++ rest) rest item)
    (before : ∀ item ∈ items, ∀ rest, Shows stop (tokens item ++ rest) false)
    (last : Shows stop output true) (other : Shows (startsOp separator) output false)
    (empty : items = [] → trailing = true) :
    Runs (sepWhile stop separator part)
      (Token.separated separator trailing (items.map tokens) ++ output) output (items, trailing) := by
  intro line endLine leftOver
  refine rounds (sepWhileFrom stop separator part) some_ ?_ ?_ ?_ line _ rfl line endLine leftOver
  · intro nothing count
    rw [empty nothing]
    exact .look last pure
  · intro item listed count more
    refine .look (before item listed _) (.bind (each item listed _ (.of_last trailing)) ?_)
    cases trailing with
    | false => exact .skip_op? other pure
    | true =>
        obtain ⟨count, rfl⟩ := Nat.exists_eq_succ_of_ne_zero (more rfl).ne'
        exact .take_op? some_ (.bind (.look last pure) pure)
  · intro item listed next _ count rest read others
    refine .look (before item listed _) (.bind (each item listed _ (.inr ⟨_, rfl⟩)) ?_)
    exact .take_op? some_ (.bind others pure)

/-- Each part with its operator is one tree at least. -/
theorem length_signed {sign : String} (some_ : sign.toList ≠ []) (tokens : α → List Token)
    (items : List α) (output : List Token) (line : Nat) :
    ∃ next, items.length + (Token.trees next output).length ≤
      (Token.trees line (items.flatMap (fun item => .op sign :: tokens item) ++ output)).length := by
  induction items generalizing line with
  | nil => exact ⟨line, (Nat.zero_add _).le⟩
  | cons item items ih =>
      obtain ⟨next, shorter⟩ := Token.length_trees_append (tokens item)
        (items.flatMap (fun item => .op sign :: tokens item) ++ output) line
      obtain ⟨last, others⟩ := ih next
      refine ⟨last, ?_⟩
      have positive := List.length_pos_iff.mpr some_
      rw [List.flatMap_cons, List.append_assoc, List.cons_append, Token.trees_op,
        Token.length_opTrees, List.length_cons]
      omega

/-- No item is read where there is none. -/
theorem many_none {more : List Tree → Bool} {part : Parser α} (last : Shows more output false) :
    Runs (many more part) output output [] :=
  .measured fun _ => manyFrom_stop last

/-- Parts that each start with an operator, up to where no other one starts. -/
theorem many {more : List Tree → Bool} {part : Parser α} {sign : String} (some_ : sign.toList ≠ [])
    (each : ∀ item ∈ items, ∀ rest,
      (rest = output ∨ ∃ next ∈ items, ∃ more, rest = .op sign :: (tokens next ++ more)) →
        Runs part (.op sign :: tokens item ++ rest) rest item)
    (before : ∀ item ∈ items, ∀ rest, Shows more (.op sign :: tokens item ++ rest) true)
    (last : Shows more output false) :
    Runs (many more part) (items.flatMap (fun item => .op sign :: tokens item) ++ output) output
      items := by
  have rounds (count : Nat) (enough : items.length < count) :
      Runs (manyFrom more part count)
        (items.flatMap (fun item => .op sign :: tokens item) ++ output) output items := by
    induction items generalizing count with
    | nil =>
        obtain ⟨count, rfl⟩ := Nat.exists_eq_succ_of_ne_zero (Nat.ne_of_gt enough)
        exact manyFrom_stop last
    | cons item items ih =>
        obtain ⟨count, rfl⟩ := Nat.exists_eq_succ_of_ne_zero (Nat.ne_of_gt (Nat.lt_of_le_of_lt
          (Nat.zero_le _) enough))
        rw [List.flatMap_cons, List.append_assoc]
        refine manyFrom_step (before item List.mem_cons_self _) (each item List.mem_cons_self _ ?_) ?_
        · cases items with
          | nil => exact .inl rfl
          | cons second items =>
              refine .inr ⟨second, by simp, ?_⟩
              exact ⟨_, by rw [List.flatMap_cons, List.append_assoc]; rfl⟩
        · exact (ih (fun item listed rest after => each item (List.mem_cons_of_mem _ listed) rest
            (after.imp_right fun ⟨next, among, more⟩ =>
              ⟨next, List.mem_cons_of_mem _ among, more⟩))
            (fun item listed => before item (List.mem_cons_of_mem _ listed)) count
            (Nat.lt_of_succ_lt_succ enough))
  intro line endLine leftOver
  obtain ⟨next, long⟩ := length_signed some_ tokens items output line
  exact rounds _ (Nat.lt_succ_of_le ((Nat.le_add_right _ _).trans long)) line endLine leftOver

end Repetition

end Runs

end Parser

end VariantMerge
