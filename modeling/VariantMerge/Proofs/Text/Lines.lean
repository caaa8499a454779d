import Mathlib.Data.List.DropRight
import VariantMerge.Text.Blank

/-!
# Lines and the blanks at their ends

A line feed ends a line wherever it comes from, so the lines of a text are those up to a line feed and
those after it (`Text.lines_feed`). Characters that end no line, put in front of a text, only go in
front of its first line (`Text.exists_lines_append`). Two texts are the same but for indentation if
their lines are the same without the blanks at their beginnings (`Text.SameButIndent`).
-/

namespace VariantMerge

namespace Text

/-! ## Cutting into lines -/

/-- A character that ends no line belongs to the first line of what follows. -/
theorem lines_cons {c : Char} {rest : List Char} (noFeed : c ≠ '\n')
    (noReturn : c = '\r' → rest.head? ≠ some '\n') :
    lines (c :: rest) = (c :: (lines rest).headD []) :: (lines rest).tail := by
  rw [lines]
  · cases lines rest <;> rfl
  · exact noFeed
  · rintro after rfl rfl
    exact noReturn rfl rfl

theorem lines_ne_nil {text : List Char} (nonempty : text ≠ []) : lines text ≠ [] := by
  fun_cases lines text with
  | case1 => exact absurd rfl nonempty
  | _ => simp [*]

/-- **Line feeds cut texts.** -/
theorem lines_feed (text rest : List Char) :
    lines (text ++ '\n' :: rest) = lines (text ++ ['\n']) ++ lines rest := by
  induction text with
  | nil => rfl
  | cons c later ih =>
      have cut : lines (later ++ ['\n']) ≠ [] := lines_ne_nil (by simp)
      by_cases feed : c = '\n'
      · subst feed
        rw [List.cons_append, List.cons_append, lines, lines, ih, List.cons_append]
      by_cases ends : c = '\r' ∧ later.head?.getD '\n' = '\n'
      · -- A carriage return and the line feed after it end a line together.
        obtain ⟨rfl, next⟩ := ends
        cases later with
        | nil => rfl
        | cons d later =>
            obtain rfl : d = '\n' := next
            simp only [List.cons_append, lines] at ih ⊢
            rw [List.cons.injEq] at ih
            rw [ih.2]
      · have plain (after : List Char) : c = '\r' → (later ++ '\n' :: after).head? ≠ some '\n' := by
          intro isReturn next
          refine ends ⟨isReturn, ?_⟩
          cases later with
          | nil => rfl
          | cons d later => exact Option.some.inj next
        obtain ⟨line, more, found⟩ := List.exists_cons_of_ne_nil cut
        rw [List.cons_append, List.cons_append, lines_cons feed (plain rest),
          lines_cons feed (plain []), ih, found]
        rfl

/-- Characters that end no line go in front of the first line. -/
theorem exists_lines_append {beginning text : List Char}
    (plain : ∀ c ∈ beginning, c ≠ '\n' ∧ c ≠ '\r') (nonempty : text ≠ []) :
    ∃ line more, lines text = line :: more ∧
      lines (beginning ++ text) = (beginning ++ line) :: more := by
  obtain ⟨line, more, found⟩ := List.exists_cons_of_ne_nil (lines_ne_nil nonempty)
  refine ⟨line, more, found, ?_⟩
  induction beginning with
  | nil => exact found
  | cons c rest ih =>
      obtain ⟨⟨noFeed, noReturn⟩, later⟩ := List.forall_mem_cons.mp plain
      rw [List.cons_append, lines_cons noFeed fun isReturn => absurd isReturn noReturn, ih later]
      rfl

/-- A line that holds no line feed and does not end in a carriage return is one line. -/
theorem lines_singleton {line : List Char} (noFeed : '\n' ∉ line)
    (noReturn : line.getLast? ≠ some '\r') : lines (line ++ ['\n']) = [line] := by
  induction line with
  | nil => rfl
  | cons c rest ih =>
      obtain ⟨here, later⟩ := not_or.mp (List.mem_cons.not.mp noFeed)
      have plain : c = '\r' → (rest ++ ['\n']).head? ≠ some '\n' := by
        rintro rfl next
        cases rest with
        | nil => exact noReturn rfl
        | cons d rest => exact later (Option.some.inj next ▸ List.mem_cons_self)
      have ends : rest.getLast? ≠ some '\r' := by
        intro last
        refine noReturn ?_
        rw [List.getLast?_cons, last]
        rfl
      rw [List.cons_append, lines_cons (Ne.symm here) plain, ih later ends]
      rfl

/-- Lines hold no line feed. -/
theorem notMem_of_mem_lines {text line : List Char} (listed : line ∈ lines text) :
    '\n' ∉ line := by
  fun_induction lines text generalizing line with
  | case1 => cases listed
  | case2 later ih =>
      obtain rfl | listed := List.mem_cons.mp listed
      · exact List.not_mem_nil
      · exact ih listed
  | case3 later ih =>
      obtain rfl | listed := List.mem_cons.mp listed
      · exact List.not_mem_nil
      · exact ih listed
  | case4 c later noFeed noReturn none_ ih =>
      obtain rfl := List.mem_singleton.mp listed
      exact fun feed => noFeed (List.mem_singleton.mp feed).symm
  | case5 c later noFeed noReturn first more found ih =>
      rw [found] at ih
      obtain rfl | listed := List.mem_cons.mp listed
      · exact List.mem_cons.not.mpr (not_or.mpr ⟨fun same => noFeed same.symm, ih List.mem_cons_self⟩)
      · exact ih (List.mem_cons_of_mem _ listed)

/-- The characters of lines, each of which ends in a line feed. -/
def feeds (lines : List String) : List Char :=
  lines.flatMap fun line => line.toList ++ ['\n']

theorem feeds_cons (line : List Char) (rest : List String) :
    feeds (String.ofList line :: rest) = line ++ '\n' :: feeds rest := by
  simp [feeds]

/-- Lines that hold no line feed and do not end in a carriage return are cut where they end. -/
theorem lines_feeds {texts : List String}
    (each : ∀ text ∈ texts, '\n' ∉ text.toList ∧ text.toList.getLast? ≠ some '\r') :
    lines (feeds texts) = texts.map String.toList := by
  induction texts with
  | nil => rfl
  | cons first rest ih =>
      obtain ⟨⟨noFeed, noReturn⟩, later⟩ := List.forall_mem_cons.mp each
      have cut : feeds (first :: rest) = first.toList ++ '\n' :: feeds rest := by
        rw [← feeds_cons, String.ofList_toList]
      rw [cut, lines_feed, lines_singleton noFeed noReturn, ih later]
      rfl

/-! ## Trimming -/

theorem trimStart_append {beginning : List Char} (blank : ∀ c ∈ beginning, isBlank c = true)
    (text : List Char) : trimStart (beginning ++ text) = trimStart text :=
  List.dropWhile_append_of_pos blank

theorem trimStart_eq_nil_iff {line : List Char} :
    trimStart line = [] ↔ line.all isBlank = true := by
  rw [trimStart, List.dropWhile_eq_nil_iff, List.all_eq_true]

/-- What stands in front of a text that is not blank stays when its end is trimmed. -/
theorem trimEnd_append (beginning : List Char) {text : List Char}
    (visible : text.all isBlank = false) :
    trimEnd (beginning ++ text) = beginning ++ trimEnd text := by
  have kept : text.reverse.dropWhile isBlank ≠ [] := by
    rw [Ne, List.dropWhile_eq_nil_iff]
    intro blank
    rw [List.all_eq_false] at visible
    obtain ⟨c, listed, seen⟩ := visible
    exact seen (blank c (List.mem_reverse.mpr listed))
  unfold trimEnd
  rw [List.reverse_append, List.dropWhile_append, if_neg (by simpa using kept),
    List.reverse_append, List.reverse_reverse]

theorem all_trimStart {line : List Char} (visible : line.all isBlank = false) :
    (trimStart line).all isBlank = false := by
  rw [← Bool.not_eq_true, ← trimStart_eq_nil_iff] at visible ⊢
  rwa [trimStart, trimStart, List.dropWhile_idempotent]

/-- The beginning of a line stays when its end is trimmed. -/
theorem trimEnd_eq {line : List Char} (visible : line.all isBlank = false) :
    trimEnd line = line.takeWhile isBlank ++ trimEnd (trimStart line) := by
  rw [← trimEnd_append _ (all_trimStart visible), trimStart, List.takeWhile_append_dropWhile]

theorem trimEnd_ne_nil {line : List Char} (visible : line.all isBlank = false) :
    trimEnd line ≠ [] := by
  intro empty
  rw [List.all_eq_false] at visible
  obtain ⟨c, listed, seen⟩ := visible
  exact seen (List.rdropWhile_eq_nil_iff.mp empty c listed)

/-- A line that is trimmed at its end does not end in a blank. -/
theorem getLast?_trimEnd {line : List Char} {c : Char} (last : (trimEnd line).getLast? = some c) :
    isBlank c = false := by
  rw [trimEnd, List.getLast?_reverse] at last
  have := List.head?_dropWhile_not isBlank line.reverse
  rw [last] at this
  simpa using this

/-- A visible line is still visible when its end is trimmed. -/
theorem all_trimEnd {line : List Char} (visible : line.all isBlank = false) :
    (trimEnd line).all isBlank = false := by
  obtain ⟨c, last⟩ := Option.ne_none_iff_exists'.mp
    (List.getLast?_eq_none_iff.not.mpr (trimEnd_ne_nil visible))
  rw [List.all_eq_false]
  refine ⟨c, List.mem_of_getLast? last, ?_⟩
  rw [getLast?_trimEnd last]
  exact Bool.false_ne_true

theorem trimEnd_trimEnd (line : List Char) : trimEnd (trimEnd line) = trimEnd line :=
  List.rdropWhile_idempotent isBlank line

/-- Trimming the end of a visible line keeps its indentation. -/
theorem takeWhile_trimEnd {line : List Char} (visible : line.all isBlank = false) :
    (trimEnd line).takeWhile isBlank = line.takeWhile isBlank := by
  obtain ⟨blanks, whole⟩ := List.rdropWhile_prefix isBlank line
  change trimEnd line ++ blanks = line at whole
  have inside : ((trimEnd line).takeWhile isBlank).length ≠ (trimEnd line).length := by
    intro full
    have all := List.takeWhile_eq_self_iff.mp
      ((List.takeWhile_prefix isBlank).eq_of_length full)
    rw [← List.all_eq_true, all_trimEnd visible] at all
    cases all
  conv_rhs => rw [← whole, List.takeWhile_append, if_neg inside]

/-! ## Indentation -/

/-- Characters that can indent a line: blanks that end none. -/
def IsIndent (beginning : List Char) : Prop :=
  ∀ c ∈ beginning, isBlank c = true ∧ c ≠ '\n' ∧ c ≠ '\r'

/-- The texts have the same lines, apart from the blanks at the beginnings of lines. -/
def SameButIndent (text other : List Char) : Prop :=
  (lines text).map trimStart = (lines other).map trimStart

theorem SameButIndent.symm {text other : List Char} (same : SameButIndent text other) :
    SameButIndent other text :=
  Eq.symm same

theorem SameButIndent.trans {first second third : List Char} (early : SameButIndent first second)
    (late : SameButIndent second third) : SameButIndent first third :=
  Eq.trans early late

/-- A text that is indented is the same but for its indentation. -/
theorem sameButIndent_indented {beginning text : List Char} (indents : IsIndent beginning)
    (nonempty : text ≠ []) : SameButIndent (beginning ++ text) text := by
  obtain ⟨line, more, found, indented⟩ :=
    exists_lines_append (fun c listed => (indents c listed).2) nonempty
  rw [SameButIndent, found, indented, List.map_cons, List.map_cons,
    trimStart_append fun c listed => (indents c listed).1]

end Text

end VariantMerge
