import VariantMerge.Grammar.Item
import VariantMerge.Proofs.Grammar.Yields
import VariantMerge.Proofs.Token.Lexed

/-!
# What parsers find in a text

`Parser.Finds` is `Parser.Meets` for the trees of a text (`Tree.AllRead`): what a parser takes from them
stands alone as well, and those that are left are trees of the text again. What may be ahead is told from
the trees, so that a parser that has looked ahead knows what it takes. Where neither the trees before nor
those after matter, `Parser.Takes` says what the values are like.
-/

namespace VariantMerge

namespace Tree

/-- What comes later was read as well. -/
theorem AllRead.drop {trees : List Tree} (all : AllRead trees) (count : Nat) :
    AllRead (trees.drop count) :=
  allRead_iff.mpr fun tree listed => allRead_iff.mp all tree (List.mem_of_mem_drop listed)

end Tree

namespace Parser

variable {α β : Type} {p : Parser α} {f : α → Parser β} {pre : List Tree → Prop}

/-- From trees of a text with the first property, only values and trees with the second one are
reached. -/
def Finds (pre : List Tree → Prop) (p : Parser α) (post : α → List Tree → Prop) : Prop :=
  Meets (fun cursor => Tree.AllRead cursor.trees ∧ pre cursor.trees) p fun a after =>
    Tree.AllRead after.trees ∧ post a after.trees

/-- All values that are taken from the trees of a text have the property. -/
def Takes (p : Parser α) (post : α → Prop) : Prop :=
  Finds (fun _ => True) p fun a _ => post a

namespace Finds

variable {post : α → List Tree → Prop} {after : β → List Tree → Prop}

/-- Two parsers one after the other, where the second one finds what the first one left. -/
theorem bind {between : α → List Tree → Prop} (first : Finds pre p between)
    (next : ∀ a, Finds (between a) (f a) after) : Finds pre (p >>= f) after :=
  Meets.bind first next

/-- A parser made of two, with what the first one finds. -/
theorem bind_as (between : α → List Tree → Prop) (first : Finds pre p between)
    (next : ∀ a, Finds (between a) (f a) after) : Finds pre (p >>= f) after :=
  bind first next

/-- A parser that needs less can be used where more is known. -/
theorem weaken {weaker : List Tree → Prop} (implies : ∀ trees, pre trees → weaker trees)
    (finds : Finds weaker p post) : Finds pre p post :=
  Meets.weaken (fun cursor start => start.imp_right (implies cursor.trees)) finds

/-- A parser that finds more can be used where less is needed. -/
theorem mono {stronger : α → List Tree → Prop} (finds : Finds pre p stronger)
    (implies : ∀ a trees, stronger a trees → post a trees) : Finds pre p post :=
  fun cursor a last start ran =>
    (finds cursor a last start ran).imp_right (implies a last.trees)

/-- What is known apart from the trees ahead. -/
theorem known (fact : Prop) (told : ∀ trees, pre trees → fact) (finds : fact → Finds pre p post) :
    Finds pre p post :=
  fun cursor a last start ran => finds (told cursor.trees start.2) cursor a last start ran

/-- One list of trees ahead at a time. -/
theorem each (finds : ∀ trees, pre trees → Finds (fun ahead => ahead = trees) p post) :
    Finds pre p post :=
  fun cursor a last start ran => finds cursor.trees start.2 cursor a last ⟨start.1, rfl⟩ ran

/-- A parser that reads nothing leaves what was there. -/
theorem pure {a : α} (holds : ∀ trees, pre trees → post a trees) :
    Finds pre (pure a : Parser α) post :=
  Meets.pure fun cursor start => start.imp_right (holds cursor.trees)

/-- A parser that fails finds whatever is asked of it. -/
theorem fail : Finds pre (fail : Parser α) post :=
  Meets.fail

/-- A branch finds what both sides do. -/
theorem ite {condition : Prop} [Decidable condition] {q : Parser α}
    (yes : condition → Finds pre p post) (no : ¬ condition → Finds pre q post) :
    Finds pre (if condition then p else q) post :=
  Meets.ite yes no

/-- A mistake at an earlier place. -/
theorem refuse_at {condition : Prop} [Decidable condition] {place : Cursor} {next : Unit → Parser β}
    (others : ¬ condition → Finds pre (next ()) after) :
    Finds pre (if condition then set place >>= fun _ => Parser.fail >>= next else next ()) after := by
  refine ite (fun _ => ?_) others
  intro cursor b last _ ran
  obtain ⟨_, middle, -, ran⟩ := bind_eq_ok_iff.mp ran
  have never : Yields (Parser.fail >>= next) fun _ => False := .fail_bind
  exact (never middle b last ran).elim

/-- A look ahead tells what is there and leaves it there. -/
theorem looks {condition : List Tree → Bool} :
    Finds pre (looks condition) fun found trees => pre trees ∧ found = condition trees := by
  intro cursor found last start ran
  cases ran
  exact ⟨start.1, start.2, rfl⟩

/-- The trees ahead are the ones that were found. -/
theorem ahead : Finds pre ahead fun found trees => pre trees ∧ found = trees := by
  intro cursor found last start ran
  cases ran
  exact ⟨start.1, start.2, rfl⟩

/-- A place that is remembered. -/
theorem get {f : Cursor → Parser β} (next : ∀ cursor, Finds pre (f cursor) after) :
    Finds pre (get >>= f) after := by
  intro cursor b last start ran
  obtain ⟨_, middle, got, ran⟩ := bind_eq_ok_iff.mp ran
  cases got
  exact next cursor cursor b last start ran

/-- An operator is read if the trees begin with it. -/
theorem op {text : String} :
    Finds pre (op text) fun _ _ => ∃ before, pre before ∧ startsOp text before = true := by
  refine bind ahead fun trees => ite (fun starts => ?_) fun _ => fail
  intro cursor a last start ran
  obtain ⟨all, holds, rfl⟩ := start
  cases ran
  exact ⟨all.drop _, cursor.trees, holds, starts⟩

/-- An operator that may be missing is read exactly if the trees begin with it. -/
theorem op? {text : String} : Finds pre (op? text) fun found trees =>
    (found = true → ∃ before, pre before ∧ startsOp text before = true) ∧
      (found = false → pre trees ∧ startsOp text trees = false) := by
  refine bind looks fun found => ite (fun _ => ?_) fun absent => ?_
  · refine bind op fun _ => pure fun _ taken => ⟨fun _ => ?_, nofun⟩
    exact taken.imp fun _ start => start.imp_left And.left
  · have none_ := Bool.eq_false_iff.mpr absent
    exact pure fun trees start => ⟨nofun, fun _ => ⟨start.1, start.2.symm.trans none_⟩⟩

/-- A keyword is read if the trees begin with it. -/
theorem keyword {text : String} :
    Finds pre (keyword text) fun _ _ => ∃ trees, pre trees ∧ startsWord text trees = true := by
  refine bind ahead fun trees => ite (fun starts => ?_) fun _ => fail
  intro cursor a last start ran
  obtain ⟨all, holds, rfl⟩ := start
  cases ran
  exact ⟨all.drop 1, cursor.trees, holds, starts⟩

/-- A keyword that may be missing is read exactly if the trees begin with it. -/
theorem keyword? {text : String} : Finds pre (keyword? text) fun found trees =>
    (found = true → ∃ before, pre before ∧ startsWord text before = true) ∧
      (found = false → pre trees ∧ startsWord text trees = false) := by
  refine bind looks fun found => ite (fun _ => ?_) fun absent => ?_
  · refine bind keyword fun _ => pure fun _ taken => ⟨fun _ => ?_, nofun⟩
    exact taken.imp fun _ start => start.imp_left And.left
  · have none_ := Bool.eq_false_iff.mpr absent
    exact pure fun trees start => ⟨nofun, fun _ => ⟨start.1, start.2.symm.trans none_⟩⟩

/-- The word that was ahead. -/
def WordAhead (pre : List Tree → Prop) (name : String) : Prop :=
  Token.isName name = true ∧ ∃ line rest, pre (.ident line name :: rest)

/-- Any word that is read was ahead. -/
theorem anyWord : Finds pre anyWord fun name _ => WordAhead pre name := by
  refine bind ahead fun trees => ?_
  split
  next line name rest =>
    refine ite (fun _ => ?_) fun _ => fail
    intro cursor a last start ran
    obtain ⟨all, holds, same⟩ := start
    cases ran
    rw [← same] at all holds
    exact ⟨all.2, all.1, line, rest, holds⟩
  next => exact fail

/-- A name that is read was ahead, and is no keyword. -/
theorem name :
    Finds pre name fun name _ => keywords.contains name = false ∧ WordAhead pre name := by
  refine bind looks fun _ => ite (fun starts => anyWord.mono ?_) fun _ => fail
  rintro name _ ⟨named, line, rest, holds, found_⟩
  subst found_
  exact ⟨by simpa [startsName] using starts, named, line, rest, holds⟩

/-- The name of a lifetime is a word, as the lexer has checked. -/
theorem lifetime :
    Finds pre lifetime fun name _ => Literal.rawableWord name.toList = some [] := by
  refine bind ahead fun trees => ?_
  split
  next line name rest =>
    intro cursor a last start ran
    obtain ⟨all, -, same⟩ := start
    cases ran
    rw [← same] at all
    exact ⟨all.2, all.1⟩
  next => exact fail

/-- So is the name of a lifetime that may be missing. -/
theorem lifetime? :
    Finds pre lifetime? fun found _ => ∀ name ∈ found, Literal.rawableWord name.toList = some [] :=
  bind looks fun _ => ite (fun _ => bind lifetime fun name => pure fun _ named => by simpa using named)
    fun _ => pure fun _ _ => nofun

/-- A literal is read whatever it is. -/
theorem literal : Finds pre literal fun _ _ => True := by
  refine bind ahead fun trees => ?_
  split
  next text rest found =>
    intro cursor a last start ran
    obtain ⟨all, -, same⟩ := start
    cases ran
    refine ⟨?_, trivial⟩
    have behind : ∃ count, rest = trees.drop count := by
      unfold literal? at found
      split at found
      · cases found
        exact ⟨1, rfl⟩
      · split at found <;> cases found
        exact ⟨1, rfl⟩
      · split at found <;> cases found
        exact ⟨2, rfl⟩
      · cases found
    obtain ⟨count, rfl⟩ := behind
    rw [same]
    exact all.drop count
  next => exact fail

/-- The text of a string literal was a literal of the lexer, and is a string by its first character.
-/
theorem stringLiteral? : Finds pre stringLiteral? fun found _ =>
    ∀ text ∈ found, Lexer.WasLiteral text ∧
      (text.toList.head? == some '"' || text.toList.head? == some 'r') = true := by
  refine bind ahead fun trees => ?_
  split
  next line text rest =>
    refine ite (fun quoted => ?_) fun _ => pure fun _ _ => nofun
    intro cursor a last start ran
    obtain ⟨all, -, same⟩ := start
    cases ran
    rw [← same] at all
    refine ⟨all.2, ?_⟩
    rintro _ ⟨rfl⟩
    exact ⟨all.1, quoted⟩
  next => exact pure fun _ _ => nofun

/-- The inside of a group is read by itself. -/
theorem group {delimiter : Delimiter} {post : α → Prop}
    (inside : Meets (fun cursor => Tree.AllRead cursor.trees) p fun a _ => post a) :
    Finds pre (group delimiter p) fun a _ => post a := by
  refine bind ahead fun trees => ?_
  split
  next line closeLine d inner rest =>
    refine ite (fun _ => ?_) fun _ => fail
    intro cursor a last start ran
    obtain ⟨all, -, same⟩ := start
    obtain ⟨b, middle, read, ran⟩ := bind_eq_ok_iff.mp ran
    cases ran
    rw [← same] at all
    refine ⟨all.2, ?_⟩
    unfold within at read
    split at read
    next => cases read
    next a last within =>
      cases read
      exact inside ⟨inner, closeLine, cursor.leftOver⟩ a last all.1 within
  next => exact fail

/-- A group is given back as one token. -/
theorem anyGroup : Finds pre anyGroup fun token _ => ∃ delimiter inner, token = .group delimiter inner := by
  refine bind ahead fun trees => ?_
  split
  next line closeLine d inner rest =>
    intro cursor a last start ran
    obtain ⟨all, -, same⟩ := start
    cases ran
    rw [← same] at all
    exact ⟨all.2, d, _, rfl⟩
  next => exact fail

/-- What was read is given back as it was written. -/
theorem written {before : Cursor} : Finds pre (written before) fun _ _ => True :=
  bind ahead fun _ => pure fun _ _ => trivial

end Finds

namespace Takes

variable {post : α → Prop} {after : β → Prop}

/-- What is taken anywhere is found behind anything. -/
theorem finds (takes : Takes p post) : Finds pre p fun a _ => post a :=
  Finds.weaken (fun _ _ => trivial) takes

/-- After what is taken, the trees ahead may be any. -/
theorem then_find {after : β → List Tree → Prop} (first : Takes p post)
    (next : ∀ a, post a → Finds (fun _ => True) (f a) after) : Finds pre (p >>= f) after :=
  Finds.bind first.finds fun a => Finds.known (post a) (fun _ holds => holds) fun holds =>
    Finds.weaken (fun _ _ => trivial) (next a holds)

/-- Two parsers one after the other, where the second one takes what the first one has read. -/
theorem bind (first : Takes p post) (next : ∀ a, post a → Takes (f a) after) :
    Takes (p >>= f) after :=
  first.then_find next

/-- What was taken first does not matter. -/
theorem skip (first : Takes p post) (next : ∀ a, Takes (f a) after) : Takes (p >>= f) after :=
  first.bind fun a _ => next a

/-- A value that satisfies the condition may be given without reading. -/
theorem pure {a : α} (holds : post a) : Takes (pure a : Parser α) post :=
  Finds.pure fun _ _ => holds

/-- A parser that takes more can be used where less is needed. -/
theorem mono {stronger : α → Prop} (takes : Takes p stronger) (implies : ∀ a, stronger a → post a) :
    Takes p post :=
  Finds.mono takes fun a _ => implies a

/-- A parser that fails takes whatever is asked of it. -/
theorem fail : Takes (fail : Parser α) post :=
  Finds.fail

/-- A branch takes what both sides do. -/
theorem ite {condition : Prop} [Decidable condition] {q : Parser α}
    (yes : condition → Takes p post) (no : ¬ condition → Takes q post) :
    Takes (if condition then p else q) post :=
  Finds.ite yes no

/-- Looking ahead, where the answer does not matter. -/
theorem look {condition : List Tree → Bool} {f : Bool → Parser β}
    (next : ∀ found, Takes (f found) after) : Takes (looks condition >>= f) after :=
  Finds.bind Finds.looks fun found => (next found).finds

/-- Operators are read for themselves. -/
theorem op {text : String} : Takes (op text) fun _ => True :=
  Finds.op.mono fun _ _ _ => trivial

/-- So are operators that may be missing. -/
theorem op? {text : String} : Takes (op? text) fun _ => True :=
  Finds.op?.mono fun _ _ _ => trivial

/-- Keywords are read for themselves. -/
theorem keyword {text : String} : Takes (keyword text) fun _ => True :=
  Finds.keyword.mono fun _ _ _ => trivial

/-- So are keywords that may be missing. -/
theorem keyword? {text : String} : Takes (keyword? text) fun _ => True :=
  Finds.keyword?.mono fun _ _ _ => trivial

/-- A name is spelled as one, and is no keyword. -/
theorem name : Takes name fun name => Token.isName name = true ∧ keywords.contains name = false :=
  Finds.name.mono fun _ _ found => ⟨found.2.1, found.1⟩

/-- Within a group whose trees were read, a parser is used as at the top. -/
theorem inside (takes : Takes p post) :
    Meets (fun cursor => Tree.AllRead cursor.trees) p fun a _ => post a :=
  fun cursor a last start ran => (takes cursor a last ⟨start, trivial⟩ ran).2

/-- A parser in a group takes what it takes outside. -/
theorem group {delimiter : Delimiter} (inside : Takes p post) : Takes (group delimiter p) post :=
  Finds.group inside.inside

/-- Whatever a group holds. -/
theorem anyInside {delimiter : Delimiter} : Takes (Parser.group delimiter p) fun _ => True :=
  Finds.group fun _ _ _ _ _ => trivial

/-! ## Repetition -/

/-- Nothing is read only up to the end of the list. -/
def Listed (post : α → Prop) (read : List α × Bool) : Prop :=
  (∀ a ∈ read.1, post a) ∧ (read.1 = [] → read.2 = true)

/-- One more item in front of a list. -/
theorem listed_cons {a : α} {rest : List α} {trailing : Bool} (holds : post a)
    (others : Listed post (rest, trailing)) : Listed post (a :: rest, trailing) :=
  ⟨List.forall_mem_cons.mpr ⟨holds, others.1⟩, nofun⟩

/-- A list of one item. -/
theorem listed_one {a : α} (holds : post a) : Listed post ([a], false) :=
  ⟨List.forall_mem_singleton.mpr holds, nofun⟩

/-- All items up to a stop are taken. -/
theorem sepUntil {stop : List Tree → Bool} {separator : String} (each : Takes p post) :
    Takes (sepUntil stop separator p) (Listed post) := by
  have rounds (count : Nat) : Takes (sepUntilFrom stop separator p count) (Listed post) := by
    induction count with
    | zero => exact .fail
    | succ count ih =>
        refine .look fun _ => ite (fun _ => .pure ⟨nofun, fun _ => rfl⟩) fun _ => ?_
        refine .bind each fun a holds => .look fun _ => ite (fun _ => ?_) fun _ => ?_
        · exact .pure (listed_one holds)
        · exact .skip .op fun _ => .bind ih fun rest others => .pure (listed_cons holds others)
  exact Finds.bind Finds.ahead fun trees => (rounds _).finds

/-- All items are taken while there are separators. -/
theorem sepWhile {stop : List Tree → Bool} {separator : String} (each : Takes p post) :
    Takes (sepWhile stop separator p) (Listed post) := by
  have rounds (count : Nat) : Takes (sepWhileFrom stop separator p count) (Listed post) := by
    induction count with
    | zero => exact .fail
    | succ count ih =>
        refine .look fun _ => ite (fun _ => .pure ⟨nofun, fun _ => rfl⟩) fun _ => ?_
        refine .bind each fun a holds => .skip .op? fun _ => ite (fun _ => ?_) fun _ => ?_
        · exact .bind ih fun rest others => .pure (listed_cons holds others)
        · exact .pure (listed_one holds)
  exact Finds.bind Finds.ahead fun trees => (rounds _).finds

/-- All items of a list with commas are taken. -/
theorem commaList (each : Takes p post) : Takes (commaList p) (Listed post) :=
  sepUntil each

/-- All items are taken while there are more. -/
theorem many {more : List Tree → Bool} (each : Takes p post) :
    Takes (many more p) fun read => ∀ a ∈ read, post a := by
  have rounds (count : Nat) : Takes (manyFrom more p count) fun read => ∀ a ∈ read, post a := by
    induction count with
    | zero => exact .fail
    | succ count ih =>
        refine .look fun _ => ite (fun _ => ?_) fun _ => .pure nofun
        refine .bind each fun a holds => .bind ih fun rest others => ?_
        exact .pure (List.forall_mem_cons.mpr ⟨holds, others⟩)
  exact Finds.bind Finds.ahead fun trees => (rounds _).finds

end Takes

end Parser

end VariantMerge
