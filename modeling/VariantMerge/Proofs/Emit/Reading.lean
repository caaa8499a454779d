import VariantMerge.Proofs.Entries
import VariantMerge.Proofs.Merged.TypeName

/-!
# Reading emitted lines

What is emitted means what a compiler makes of its text. A `LineReader` takes characters from the front
of a line: fixed texts, and names between them, which go as far as they can. A reader reads back what was
written if each text comes first where it is asked for (`LineReader.exactly_append`) and each name stops
where it should (`LineReader.named_append`); other texts are told apart by the place where they differ
(`LineReader.exactly_clash`).
-/

namespace VariantMerge

/-- Values that are all read as they were written. -/
theorem mapM_map_eq_some {α β : Type*} {write : α → β} {read : β → Option α} {values : List α}
    (each : ∀ value ∈ values, read (write value) = some value) :
    (values.map write).mapM read = some values := by
  rw [List.mapM_map]
  exact (mapM_eq_some_map each).trans (congrArg some (List.map_id values))

/-- A reader takes characters from the front of a line. -/
abbrev LineReader := StateT (List Char) Option

namespace LineReader

variable {α β : Type}

/-! ## Readers -/

/-- Reads exactly this text. -/
def exactly (expected : String) : LineReader Unit := fun cs =>
  (MergedType.stripBeginning? expected.toList cs).map ((), ·)

/-- Reads this text if it comes first, and says whether it did. -/
def perhaps (expected : String) : LineReader Bool := fun cs =>
  match MergedType.stripBeginning? expected.toList cs with
  | some rest => some (true, rest)
  | none => some (false, cs)

/-- Reads the characters of names that come first. -/
def word : LineReader String := fun cs =>
  some (String.ofList (cs.takeWhile Text.isNameChar), cs.dropWhile Text.isNameChar)

/-- Reads a name and the text after it. -/
def named (after : String) : LineReader String := do
  let name ← word
  exactly after
  return name

/-- Reads all that is left. -/
def remaining : LineReader String := fun cs =>
  some (String.ofList cs, [])

/-- The names that are read one after the other, each after a comma; no more than `count` of them. -/
def moreNames : Nat → LineReader (List String)
  | 0 => return []
  | count + 1 => do
    if ← perhaps ", " then
      let name ← word
      return name :: (← moreNames count)
    else return []

/-- The names after commas, as many as there are. -/
def namesAfterCommas : LineReader (List String) := do
  moreNames (← get).length

/-- Reads a whole line. -/
def run? (reader : LineReader α) (line : String) : Option α :=
  match reader line.toList with
  | some (a, []) => some a
  | _ => none

/-! ## What they read -/

/-- The one text is no beginning of the other one, whichever is longer. -/
def Clash (text other : String) : Prop :=
  ¬ text.toList <+: other.toList ∧ ¬ other.toList <+: text.toList

instance (text other : String) : Decidable (Clash text other) :=
  inferInstanceAs (Decidable (_ ∧ _))

/-- The text starts with a character that no name goes on with. -/
def Stops (text : String) : Prop :=
  text.toList.head?.any (!Text.isNameChar ·) = true

instance (text : String) : Decidable (Stops text) :=
  inferInstanceAs (Decidable (_ = true))

variable {reader : LineReader α} {next : α → LineReader β} {expected name : String}
  {cs rest : List Char}

/-- Readers one after the other read what the one before has left. -/
theorem bind_run (reader : LineReader α) (next : α → LineReader β) (cs : List Char) :
    (reader >>= next) cs = (reader cs).bind fun read => next read.1 read.2 := rfl

/-- A value is read from nothing. -/
theorem pure_run (a : α) (cs : List Char) : (pure a : LineReader α) cs = some (a, cs) := rfl

/-- What is read first is passed on. -/
theorem bind_eq {a : α} (first : reader cs = some (a, rest)) :
    (reader >>= next) cs = next a rest := by
  change (reader cs).bind _ = _
  rw [first]
  rfl

/-- Nothing is read behind what could not be read. -/
theorem bind_eq_none (first : reader cs = none) : (reader >>= next) cs = none := by
  change (reader cs).bind _ = _
  rw [first]
  rfl

/-- The second reader is asked where the first one fails. -/
theorem orElse_eq {other : LineReader α} (first : reader cs = none) :
    (reader <|> other) cs = other cs := by
  change (reader cs).orElse _ = _
  rw [first]
  rfl

/-- Another reader is not asked where the first one has read. -/
theorem orElse_eq_some {other : LineReader α} {read : α × List Char} (first : reader cs = some read) :
    (reader <|> other) cs = some read := by
  change (reader cs).orElse _ = _
  rw [first]
  rfl

/-- A line is read if nothing is left of it. -/
theorem run?_eq_some {line : String} {a : α} (read : reader line.toList = some (a, [])) :
    reader.run? line = some a := by
  rw [run?, read]

/-- A beginning that is there is taken away. -/
theorem strip_append (front rest : List Char) :
    MergedType.stripBeginning? front (front ++ rest) = some rest :=
  MergedType.stripBeginning?_eq_some_iff.mpr rfl

/-- A beginning that clashes is not. -/
theorem strip_clash {other : String} (clash : Clash expected other) (rest : List Char) :
    MergedType.stripBeginning? expected.toList (other.toList ++ rest) = none := by
  refine Option.eq_none_iff_forall_ne_some.mpr fun left found => ?_
  have whole := MergedType.stripBeginning?_eq_some_iff.mp found
  obtain ⟨more, same⟩ | ⟨more, same, -⟩ := List.append_eq_append_iff.mp whole.symm
  · exact clash.1 ⟨more, same.1.symm⟩
  · exact clash.2 ⟨more, same.symm⟩

/-- A text that is there is read. -/
@[simp] theorem exactly_append (expected : String) (rest : List Char) :
    exactly expected (expected.toList ++ rest) = some ((), rest) := by
  rw [exactly, strip_append]
  rfl

/-- Another text comes first. -/
theorem exactly_clash {other : String} (clash : Clash expected other) (rest : List Char) :
    exactly expected (other.toList ++ rest) = none := by
  rw [exactly, strip_clash clash]
  rfl

/-- A text that may be missing is read if it is there. -/
@[simp] theorem perhaps_append (expected : String) (rest : List Char) :
    perhaps expected (expected.toList ++ rest) = some (true, rest) := by
  rw [perhaps, strip_append]

/-- Nothing is read where something clashes with it. -/
theorem perhaps_clash {other : String} (clash : Clash expected other) (rest : List Char) :
    perhaps expected (other.toList ++ rest) = some (false, other.toList ++ rest) := by
  rw [perhaps, strip_clash clash]

/-- A character that is none of a name is in no name. -/
theorem notMem_of_isNameText (plain : Text.isNameText name = true) {c : Char}
    (other : Text.isNameChar c = false) : c ∉ name.toList := by
  intro listed
  exact Bool.eq_false_iff.mp other (List.all_eq_true.mp plain c listed)

/-- A name is read up to the first character that is none of a name. -/
theorem word_append (plain : Text.isNameText name = true)
    (stops : ∀ c ∈ rest.head?, Text.isNameChar c = false) :
    word (name.toList ++ rest) = some (name, rest) := by
  have chars : ∀ c ∈ name.toList, Text.isNameChar c = true := List.all_eq_true.mp plain
  have none_ : rest.takeWhile Text.isNameChar = [] ∧ rest.dropWhile Text.isNameChar = rest := by
    cases rest with
    | nil => exact ⟨rfl, rfl⟩
    | cons c rest =>
        have other : ¬ Text.isNameChar c = true := Bool.eq_false_iff.mp (stops c rfl)
        exact ⟨List.takeWhile_cons_of_neg other, List.dropWhile_cons_of_neg other⟩
  rw [word, List.takeWhile_append_of_pos chars, List.dropWhile_append_of_pos chars, none_.1, none_.2,
    List.append_nil, String.ofList_toList]

/-- A name is read with the text after it. -/
theorem named_append (plain : Text.isNameText name = true) {after : String} (stops : Stops after)
    (rest : List Char) : named after (name.toList ++ (after.toList ++ rest)) = some (name, rest) := by
  have ends : ∀ c ∈ (after.toList ++ rest).head?, Text.isNameChar c = false := by
    intro c first
    obtain ⟨d, starts, stop⟩ := (Option.any_eq_true _ _).mp stops
    rw [List.head?_append, starts, Option.some_or, Option.mem_some_iff] at first
    subst first
    simpa using stop
  rw [named, bind_eq (word_append plain ends), bind_eq (exactly_append after rest)]
  rfl

/-- The names as they are written after others, each after a comma. -/
def afterCommas (names : List String) : List Char :=
  names.flatMap fun name => (", " ++ name).toList

/-- A name among others stands behind a comma. -/
theorem afterCommas_cons (name : String) (names : List String) :
    afterCommas (name :: names) = ", ".toList ++ (name.toList ++ afterCommas names) := by
  rw [afterCommas, List.flatMap_cons, String.toList_append, List.append_assoc]
  rfl

/-- Each name has its comma, so the length is fuel enough. -/
theorem length_le_afterCommas (names : List String) : names.length ≤ (afterCommas names).length := by
  induction names with
  | nil => exact Nat.zero_le _
  | cons name names ih =>
      rw [afterCommas_cons, List.length_append, List.length_append, List.length_cons]
      have comma : ", ".toList.length = 2 := rfl
      omega

/-- Names with commas are the first one, and the others behind commas. -/
theorem intercalate_eq (first : String) (names : List String) :
    (String.intercalate ", " (first :: names)).toList = first.toList ++ afterCommas names := by
  induction names generalizing first with
  | nil => simp [afterCommas]
  | cons name names ih =>
      rw [String.intercalate_cons_cons, String.toList_append, String.toList_append, ih,
        afterCommas_cons, List.append_assoc]

section Names

variable {names : List String} {after : String} (plain : ∀ name ∈ names, Text.isNameText name = true)
  (stops : Stops after)

include stops in
/-- A name ends before a comma, and before what comes after all names. -/
theorem stops_afterCommas (names : List String) (rest : List Char) :
    ∀ c ∈ (afterCommas names ++ (after.toList ++ rest)).head?, Text.isNameChar c = false := by
  intro c first
  cases names with
  | nil =>
      obtain ⟨d, starts, stop⟩ := (Option.any_eq_true _ _).mp stops
      rw [afterCommas, List.flatMap_nil, List.nil_append, List.head?_append, starts,
        Option.some_or, Option.mem_some_iff] at first
      subst first
      simpa using stop
  | cons name names =>
      rw [afterCommas_cons] at first
      obtain rfl : ',' = c := Option.some.inj first
      decide

include plain stops

/-- Names after commas are read up to what stands behind them. -/
theorem moreNames_append {count : Nat} (enough : names.length ≤ count) (ends : Clash ", " after)
    (rest : List Char) : moreNames count (afterCommas names ++ (after.toList ++ rest)) =
      some (names, after.toList ++ rest) := by
  induction names generalizing count with
  | nil =>
      cases count with
      | zero => rfl
      | succ count => exact bind_eq (perhaps_clash ends rest)
  | cons name names ih =>
      obtain ⟨count, rfl⟩ := Nat.exists_eq_succ_of_ne_zero
        (Nat.ne_of_gt (Nat.lt_of_lt_of_le (Nat.succ_pos _) enough))
      obtain ⟨here, others⟩ := List.forall_mem_cons.mp plain
      have later := ih others (Nat.le_of_succ_le_succ enough)
      rw [afterCommas_cons, List.append_assoc, List.append_assoc]
      refine (bind_eq (perhaps_append ", " _)).trans ?_
      refine (bind_eq (word_append here (stops_afterCommas stops names rest))).trans ?_
      exact (bind_eq later).trans rfl

/-- Names behind commas are read up to what comes after them. -/
theorem namesAfterCommas_append (ends : Clash ", " after) (rest : List Char) :
    namesAfterCommas (afterCommas names ++ (after.toList ++ rest)) =
      some (names, after.toList ++ rest) := by
  refine moreNames_append plain stops (Nat.le_trans (length_le_afterCommas names) ?_) ends rest
  rw [List.length_append]
  exact Nat.le_add_right _ _

end Names

end LineReader

end VariantMerge
