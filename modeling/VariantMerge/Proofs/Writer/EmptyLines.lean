import VariantMerge.Proofs.Writer.Blocks
import VariantMerge.Proofs.Writer.Scopes

/-!
# Empty lines

A writer parts two pieces of text by an empty line if it is asked to (`SourceWriter.blank`), but not at
the beginning of the text, behind another empty line, or behind an opening brace. What it has been asked
for before is only looked at through the text, of which all lines have been ended
(`SourceWriter.Reaches.hasLines`). A single empty line is not told from the beginning of a line: it
is doubled, whereas each other one stays alone (`SourceWriter.blank_parts`).
-/

namespace VariantMerge

namespace SourceWriter

variable {w start : SourceWriter}

/-! ## Lines of a writer -/

/-- The lines of the text. Each of them has been ended, so nothing comes after the last line feed. -/
def textLines (w : SourceWriter) : List (List Char) :=
  (w.text.toList.splitOn '\n').dropLast

/-- What a writer has written is lines, and its indentation does not end them. -/
structure HasLines (w : SourceWriter) : Prop where
  indents : Text.IsIndent w.unit.toList
  oneLine : ∀ line ∈ w.lines, IsOneLine line

namespace HasLines

theorem textLines_eq (has : w.HasLines) : w.textLines = w.lines.map String.toList := by
  rw [textLines, toList_text, splitOn_feeds has.oneLine, List.dropLast_concat]

/-- More lines of text at any depth. -/
theorem append (has : w.HasLines) {entries : List Entry} (oneLine : ∀ entry ∈ entries, IsOneLine entry.text)
    {next : SourceWriter} (unit : next.unit = w.unit)
    (lines : next.lines = w.lines ++ entries.map (Entry.written w.unit)) : next.HasLines := by
  refine ⟨unit ▸ has.indents, ?_⟩
  rw [lines]
  intro line listed
  rcases List.mem_append.mp listed with earlier | later
  · exact has.oneLine line earlier
  · obtain ⟨entry, meant, rfl⟩ := List.mem_map.mp later
    exact Entry.isOneLine_written has.indents (oneLine entry meant)

theorem put (has : w.HasLines) {mark : Mark} (oneLine : IsOneLine mark.content) :
    (w.put mark).HasLines :=
  has.append (mark.isOneLine_entries oneLine w) (put_unit w mark) (put_lines w mark)

theorem putAll (has : w.HasLines) {marks : List Mark} (oneLine : ∀ mark ∈ marks, IsOneLine mark.content) :
    (w.putAll marks).HasLines := by
  induction marks generalizing w with
  | nil => exact has
  | cons mark rest ih =>
      obtain ⟨here, later⟩ := List.forall_mem_cons.mp oneLine
      exact ih (has.put here) later

/-- A request in texts without line feeds. -/
theorem after (has : w.HasLines) {request : Request} (oneLine : ∀ text ∈ request.texts, IsOneLine text) :
    (w.after request).HasLines := by
  rw [after_eq]
  exact has.putAll (Request.isOneLine_marks oneLine)

/-- A block, whatever its text. -/
theorem block? (has : w.HasLines) {text : String} {next : SourceWriter}
    (written : w.block? text = some next) : next.HasLines := by
  obtain ⟨outs, found, rfl⟩ := Option.map_eq_some_iff.mp written
  have oneLine : ∀ out ∈ outs, IsOneLine out := by
    intro out listed
    obtain ⟨line, inside, dedents⟩ := exists_of_forall₂ (dedents_of_blockLines? found).flip listed
    exact (dedents.ends (Text.notMem_of_mem_lines inside)).1
  have lines := foldl_line_eq w outs
  have entries : ∀ entry ∈ outs.map (Entry.mk w.depth), IsOneLine entry.text :=
    List.forall_mem_map.mpr oneLine
  apply has.append entries
  · rw [lines]
  · rw [lines, List.map_map]
    rfl

/-- The text is a single line feed exactly if all that has been written is an empty line. -/
theorem text_eq_feed_iff (has : w.HasLines) : w.text = "\n" ↔ w.lines = [""] := by
  constructor
  · intro feed
    have lines : w.textLines = [[]] := by
      rw [textLines, feed]
      decide
    rw [has.textLines_eq] at lines
    obtain ⟨line, single, empty⟩ := List.map_eq_singleton_iff.mp lines
    rw [single, String.toList_eq_nil_iff.mp empty]
  · intro single
    rw [text, single]
    decide

end HasLines

/-! ## Reachable writers -/

/-- The writers that one is led to by requests in texts without line feeds, and by blocks of lines. -/
inductive Reaches (start : SourceWriter) : SourceWriter → Prop
  | refl : Reaches start start
  | request {w : SourceWriter} (reached : Reaches start w) (request : Request)
      (oneLine : ∀ text ∈ request.texts, IsOneLine text) : Reaches start (w.after request)
  | block {w next : SourceWriter} (reached : Reaches start w) (text : String)
      (written : w.block? text = some next) : Reaches start next

theorem Reaches.hasLines (reached : start.Reaches w) (has : start.HasLines) : w.HasLines := by
  induction reached with
  | refl => exact has
  | request _ request oneLine ih => exact ih.after oneLine
  | block _ text written ih => exact ih.block? written

theorem hasLines_new {indent : Indent} (made : new indent = .ok start) : start.HasLines := by
  obtain ⟨unit, built, rfl⟩ := new_eq_ok_iff.mp made
  exact ⟨Indent.isIndent built, fun _ listed => absurd listed List.not_mem_nil⟩

/-! ## Where an empty line is due -/

/-- There is text to be parted from what follows: its last line is not empty and opens no scope. -/
def EndsPiece (w : SourceWriter) : Prop :=
  ∃ last ∈ w.textLines.getLast?, last ≠ [] ∧ last.getLast? ≠ some '\x7b'

/-- The last characters of the text tell whether an empty line is written. -/
theorem HasLines.takesBlank_iff (has : w.HasLines) :
    w.takesBlank = true ↔ w.EndsPiece ∨ w.text = "\n" := by
  rw [EndsPiece, has.textLines_eq, has.text_eq_feed_iff, takesBlank, List.getLast?_map]
  rcases List.eq_nil_or_concat' w.lines with none_ | ⟨front, last, lines⟩
  · simp [none_]
  · have oneLine : IsOneLine last := has.oneLine last (by simp [lines])
    rw [lines, List.getLast?_concat]
    rcases List.eq_nil_or_concat' last.toList with empty | ⟨beginning, c, chars⟩
    · have last_ : last = "" := String.toList_eq_nil_iff.mp empty
      simp [last_]
    · have notFeed : c ≠ '\n' := by
        rintro rfl
        exact oneLine (by simp [chars])
      have notEmpty : last ≠ "" := by
        rintro rfl
        simp at chars
      have other : front ++ [last] ≠ [""] := by
        intro single
        have ends := congrArg List.getLast? single
        rw [List.getLast?_concat] at ends
        exact notEmpty (Option.some.inj ends)
      simp [chars, notFeed, other]

theorem blank_of_takesBlank (due : w.takesBlank = true) :
    w.blank = { w with lines := w.lines ++ [""] } := by
  rw [blank, if_pos due]
  rfl

/-- **Where an empty line is written.** A writer that has been asked for texts without line feeds, and for
blocks of lines, adds exactly one empty line to the text if the last line is neither empty nor ends in an
opening brace. In all other cases it stays as it is, except that it doubles an empty line that is all
the text. So there is no other empty line behind which one is written. -/
theorem blank_parts {indent : Indent} (made : new indent = .ok start) (reached : start.Reaches w) :
    (w.EndsPiece ∨ w.text = "\n" →
      w.blank = { w with lines := w.lines ++ [""] } ∧ w.blank.text = w.text ++ "\n" ∧
        w.blank.textLines = w.textLines ++ [[]]) ∧
    (¬ (w.EndsPiece ∨ w.text = "\n") → w.blank = w) ∧
    (w.textLines.getLast? = some [] → w.text ≠ "\n" → w.blank = w) := by
  have has := reached.hasLines (hasLines_new made)
  have stays (other : ¬ (w.EndsPiece ∨ w.text = "\n")) : w.blank = w := by
    rw [blank, if_neg (has.takesBlank_iff.not.mpr other)]
  refine ⟨fun due => ?_, stays, fun empty more => stays ?_⟩
  · have added := blank_of_takesBlank (has.takesBlank_iff.mpr due)
    have empty : IsOneLine Mark.gap.content := by decide
    have still : w.blank.HasLines := has.put empty
    refine ⟨added, ?_, ?_⟩
    · rw [added]
      simp [text]
    · rw [still.textLines_eq, has.textLines_eq, added]
      simp
  · rintro (⟨last, found, nonempty, -⟩ | single)
    · rw [empty] at found
      exact nonempty (Option.some.inj found).symm
    · exact more single

/-- Behind a line in an open scope an empty line is written, behind the opening brace and behind the
empty line none is. -/
theorem blank_parts_inScope :
    ∃ start opened inside : SourceWriter, new .tabs = .ok start ∧
      opened = start.beginScope "fn f()" ∧ inside = opened.line "g();" ∧
      opened.blank = opened ∧
      inside.blank.textLines = inside.textLines ++ [[]] ∧ inside.blank.blank = inside.blank := by
  have made : new .tabs = .ok ⟨"\t", [], []⟩ := rfl
  have nothing : Reaches ⟨"\t", [], []⟩ ⟨"\t", [], []⟩ := .refl
  have entered := nothing.request (.beginScope "fn f()") (by decide)
  have written := entered.request (.line "g();") (by decide)
  have parted := written.request .blank (by decide)
  refine ⟨_, _, _, made, rfl, rfl, ?_, ?_, ?_⟩
  · refine (blank_parts made entered).2.1 ?_
    rintro (⟨last, found, -, notOpening⟩ | single)
    · cases found
      exact notOpening (by decide)
    · exact absurd single (by decide)
  · exact ((blank_parts made written).1 (.inl ⟨"\tg();".toList, by decide, by decide, by decide⟩)).2.2
  · exact (blank_parts made parted).2.2 (by decide) (by decide)

/-- A writer that starts with an empty line puts a second one behind it. -/
theorem blank_doubles :
    ∃ start w, new .tabs = .ok start ∧ Reaches start w ∧ w.textLines.getLast? = some [] ∧
      w.blank.textLines = [[], []] := by
  have made : new .tabs = .ok ⟨"\t", [], []⟩ := rfl
  refine ⟨_, line ⟨"\t", [], []⟩ "", made, ?_, by decide, by decide⟩
  exact .request .refl (.line "") (by decide)

end SourceWriter

end VariantMerge
