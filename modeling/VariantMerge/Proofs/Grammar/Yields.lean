import VariantMerge.Grammar.Basic
import VariantMerge.Proofs.Except

/-!
# What parsers return

`Parser.Meets` is a triple for parsers: started at a cursor with the one property, a parser that
succeeds returns a value and a cursor with the other. Where neither cursor matters, `Parser.Yields`
says what the values are like. Both have one lemma for each way to build a parser, so a fact about what
a grammar reads is proved along its definitions.
-/

namespace VariantMerge

/-- No lifetime comes first. -/
def Cursor.NoLifetime (cursor : Cursor) : Prop :=
  Parser.startsLifetime cursor.trees = false

namespace Parser

variable {α β : Type} {p : Parser α} {f : α → Parser β} {pre : Cursor → Prop}

/-- From a cursor with the first property, only values and cursors with the second one are reached. -/
def Meets (pre : Cursor → Prop) (p : Parser α) (post : α → Cursor → Prop) : Prop :=
  ∀ cursor a after, pre cursor → p cursor = .ok (a, after) → post a after

/-- All values that are read have the property. -/
def Yields (p : Parser α) (post : α → Prop) : Prop :=
  ∀ cursor a after, p cursor = .ok (a, after) → post a

/-- Two parsers one after the other succeed if the second one does with what the first has left. -/
theorem bind_eq_ok_iff {cursor after : Cursor} {b : β} :
    (p >>= f) cursor = .ok (b, after) ↔
      ∃ a between, p cursor = .ok (a, between) ∧ f a between = .ok (b, after) := by
  change (p cursor).bind (fun read => f read.1 read.2) = .ok (b, after) ↔ _
  rw [Except.bind_eq_ok_iff, Prod.exists]

namespace Yields

variable {post : α → Prop} {after : β → Prop}

/-- A parser that yields more can be used where less is needed. -/
theorem mono {weaker : α → Prop} (yields : Yields p post) (implies : ∀ a, post a → weaker a) :
    Yields p weaker :=
  fun cursor a after read => implies a (yields cursor a after read)

/-- Two parsers one after the other, where the second one yields something for all that the first
does. -/
theorem bind (first : Yields p post) (next : ∀ a, post a → Yields (f a) after) :
    Yields (p >>= f) after := by
  intro cursor b last read
  obtain ⟨a, middle, here, later⟩ := bind_eq_ok_iff.mp read
  exact next a (first cursor a middle here) middle b last later

/-- A parser made of two, with what the first one reads. -/
theorem bind_as (post : α → Prop) (first : Yields p post)
    (next : ∀ a, post a → Yields (f a) after) : Yields (p >>= f) after :=
  bind first next

/-- What was read first does not matter. -/
theorem bind_any (next : ∀ a, Yields (f a) after) : Yields (p >>= f) after := by
  intro cursor b last read
  obtain ⟨a, middle, -, later⟩ := bind_eq_ok_iff.mp read
  exact next a middle b last later

/-- A value is yielded as it is. -/
theorem pure {a : α} (holds : post a) : Yields (pure a : Parser α) post := by
  intro cursor b after read
  cases read
  exact holds

/-- A parser that reads all of a text. -/
theorem run (yields : Yields p post) {trees : List Tree} {a : α}
    (ran : Parser.run p trees = .ok a) : post a := by
  unfold Parser.run at ran
  split at ran
  next => cases ran
  next read =>
    split at ran
    next =>
      cases ran
      exact yields _ _ _ read
    next => cases ran

/-- A parser that fails yields whatever is asked of it. -/
theorem fail : Yields (fail : Parser α) post := by
  intro cursor a after read
  unfold Parser.fail at read
  split at read <;> cases read

/-- Nothing is read after a failure. -/
theorem fail_bind : Yields (Parser.fail >>= f) after :=
  bind_as (fun _ => False) fail fun _ absurd_ => absurd_.elim

/-- A branch yields what both sides do. -/
theorem ite {condition : Prop} [Decidable condition] {q : Parser α}
    (yes : condition → Yields p post) (no : ¬ condition → Yields q post) :
    Yields (if condition then p else q) post := by
  split
  next holds => exact yes holds
  next fails => exact no fails

/-- Something that may come before the rest. -/
theorem when {condition : Prop} [Decidable condition] {first : Parser Unit}
    {next : Unit → Parser β} (each : ∀ a, Yields (next a) after) :
    Yields (if condition then first >>= next else next ()) after :=
  ite (fun _ => bind_any each) fun _ => each ()

/-- A part that is read only sometimes does not matter for what comes next. -/
theorem when₂ {condition : Prop} [Decidable condition] {first : Parser α}
    {second : α → Parser Unit} {next : Unit → Parser β} (each : ∀ a, Yields (next a) after) :
    Yields (if condition then first >>= fun a => second a >>= next else next ()) after :=
  ite (fun _ => bind_any fun _ => bind_any each) fun _ => each ()

/-- A parser yields in a group what it yields outside. -/
theorem within {inner : List Tree} {closeLine : Nat} (inside : Yields p post) :
    Yields (within inner closeLine p) post := by
  intro cursor a after read
  unfold Parser.within at read
  split at read
  · cases read
  next b last inner_ =>
    cases read
    exact inside _ _ _ inner_

/-- A group yields what is inside. -/
theorem group {delimiter : Delimiter} (inside : Yields p post) :
    Yields (group delimiter p) post := by
  refine bind_any fun trees => ?_
  split
  · refine ite (fun _ => ?_) fun _ => fail
    exact bind (within inside) fun a holds => bind_any fun _ => pure holds
  · exact fail

/-- All items up to a stop are yielded. -/
theorem sepUntil {stop : List Tree → Bool} {separator : String} (each : Yields p post) :
    Yields (sepUntil stop separator p) fun read => ∀ a ∈ read.1, post a := by
  have rounds (count : Nat) : Yields (sepUntilFrom stop separator p count)
      fun read => ∀ a ∈ read.1, post a := by
    induction count with
    | zero => exact fail
    | succ count ih =>
        refine bind_any fun _ => ite (fun _ => pure (by simp)) fun _ => ?_
        refine bind each fun a holds => ?_
        refine bind_any fun _ => ite (fun _ => pure (by simpa using holds)) fun _ => ?_
        refine bind_any fun _ => bind ih fun rest others => ?_
        exact pure (List.forall_mem_cons.mpr ⟨holds, others⟩)
  exact bind_any fun trees => rounds _

/-- All items are yielded while there are separators. -/
theorem sepWhile {stop : List Tree → Bool} {separator : String} (each : Yields p post) :
    Yields (sepWhile stop separator p) fun read => ∀ a ∈ read.1, post a := by
  have rounds (count : Nat) : Yields (sepWhileFrom stop separator p count)
      fun read => ∀ a ∈ read.1, post a := by
    induction count with
    | zero => exact fail
    | succ count ih =>
        refine bind_any fun _ => ite (fun _ => pure (by simp)) fun _ => ?_
        refine bind each fun a holds => ?_
        refine bind_any fun _ => ite (fun _ => ?_) fun _ => pure (by simpa using holds)
        refine bind ih fun rest others => ?_
        exact pure (List.forall_mem_cons.mpr ⟨holds, others⟩)
  exact bind_any fun trees => rounds _

/-- All items of a list with commas are yielded. -/
theorem commaList (each : Yields p post) :
    Yields (commaList p) fun read => ∀ a ∈ read.1, post a :=
  sepUntil each

/-- All items are yielded while there are more. -/
theorem many {more : List Tree → Bool} (each : Yields p post) :
    Yields (many more p) fun read => ∀ a ∈ read, post a := by
  have rounds (count : Nat) : Yields (manyFrom more p count) fun read => ∀ a ∈ read, post a := by
    induction count with
    | zero => exact fail
    | succ count ih =>
        refine bind_any fun _ => ite (fun _ => ?_) fun _ => pure (by simp)
        refine bind each fun a holds => bind ih fun rest others => ?_
        exact pure (List.forall_mem_cons.mpr ⟨holds, others⟩)
  exact bind_any fun trees => rounds _

end Yields

namespace Meets

variable {post : α → Cursor → Prop} {after : β → Cursor → Prop}

/-- Two parsers one after the other, where the second one needs what the first one meets. -/
theorem bind {between : α → Cursor → Prop} (first : Meets pre p between)
    (next : ∀ a, Meets (between a) (f a) after) : Meets pre (p >>= f) after := by
  intro cursor b last start read
  obtain ⟨a, middle, here, later⟩ := bind_eq_ok_iff.mp read
  exact next a middle b last (first cursor a middle start here) later

/-- A parser that needs less can be used where more is known. -/
theorem weaken {weaker : Cursor → Prop} (implies : ∀ cursor, pre cursor → weaker cursor)
    (meets : Meets weaker p post) : Meets pre p post :=
  fun cursor a after start read => meets cursor a after (implies cursor start) read

/-- A value leaves the input as it is. -/
theorem pure {a : α} (holds : ∀ cursor, pre cursor → post a cursor) :
    Meets pre (pure a : Parser α) post := by
  intro cursor b after start read
  cases read
  exact holds cursor start

/-- A parser that fails meets whatever is asked of it. -/
theorem fail : Meets pre (fail : Parser α) post := by
  intro cursor a after _ read
  unfold Parser.fail at read
  split at read <;> cases read

/-- A branch meets what both sides do. -/
theorem ite {condition : Prop} [Decidable condition] {q : Parser α}
    (yes : condition → Meets pre p post) (no : ¬ condition → Meets pre q post) :
    Meets pre (if condition then p else q) post := by
  split
  next holds => exact yes holds
  next fails => exact no fails

/-- What is yielded anywhere is met behind anything. -/
theorem of_yields {post : α → Prop} (yields : Yields p post) : Meets pre p fun a _ => post a :=
  fun cursor a after _ read => yields cursor a after read

/-- Looking ahead moves nothing. -/
theorem looks {condition : List Tree → Bool} :
    Meets pre (looks condition) fun found cursor => pre cursor ∧ found = condition cursor.trees := by
  intro cursor found after start read
  cases read
  exact ⟨start, rfl⟩

/-- What is not ahead leaves the input as it is. -/
theorem stays {condition : List Tree → Bool} :
    Meets pre (Parser.looks condition) fun found cursor => found = false → pre cursor :=
  fun cursor found after start read _ => (looks cursor found after start read).1

/-- Nothing is to show about values that are never read. -/
theorem of_never {post : α → Prop} {cursors : α → Cursor → Prop}
    (never : Yields p fun a => ¬ post a) :
    Meets pre p fun a cursor => post a → cursors a cursor :=
  fun cursor a after _ read holds => absurd holds (never cursor a after read)

/-- A keyword that is not there is not taken. -/
theorem keyword? {text : String} :
    Meets pre (keyword? text) fun found cursor => found = false → pre cursor :=
  bind looks fun _ => ite (fun _ => of_never (.bind_any fun _ => .pure Bool.noConfusion))
    fun _ => pure fun _ start _ => start.1

/-- An operator that is not there leaves the input as it is. -/
theorem op? {text : String} :
    Meets pre (op? text) fun found cursor => found = false → pre cursor :=
  bind looks fun _ => ite (fun _ => of_never (.bind_any fun _ => .pure Bool.noConfusion))
    fun _ => pure fun _ start _ => start.1

/-- A lifetime that is not there leaves the input as it is. -/
theorem lifetime? :
    Meets pre lifetime? fun name cursor => name = none → cursor.NoLifetime :=
  bind looks fun _ => ite (fun _ => of_never (.bind_any fun _ => .pure nofun))
    fun absent => pure fun _ start _ => start.2.symm.trans (Bool.eq_false_iff.mpr absent)

/-- A choice that moves nothing if it is not taken. -/
theorem bind_ite {test : Parser Bool} {taken other : Parser α} {post : α → Prop}
    (remains : Meets pre test fun found cursor => found = false → pre cursor)
    (yes : Yields taken post) (no : Meets pre other fun a _ => post a) :
    Meets pre (test >>= fun found => if found = true then taken else other) fun a _ => post a :=
  bind remains fun _ => ite (fun _ => of_yields yes) fun absent =>
    weaken (fun _ stays => stays (Bool.eq_false_iff.mpr absent)) no

end Meets

end Parser

end VariantMerge
