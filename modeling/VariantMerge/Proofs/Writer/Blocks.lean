import VariantMerge.Proofs.Writer.Runs

/-!
# Blocks of lines

A block is written line by line, without the blanks that its visible lines have in common at their
beginnings and without those at their ends. What they have in common is counted in bytes. So where
lines are indented by different characters, the count can end inside of a character, and then the block
cannot be written (`SourceWriter.blockLines?_eq_none_iff`). A block that can be written keeps the
differences of its lines' indentations, and what is written for it is written again unchanged
(`SourceWriter.block?_reindents`).
-/

namespace VariantMerge

namespace SourceWriter

open Text (isBlank trimEnd)

/-! ## Bytes -/

/-- How many bytes the characters take. -/
def byteSize : List Char → Nat
  | [] => 0
  | c :: rest => c.utf8Size + byteSize rest

theorem byteSize_cons (c : Char) (cs : List Char) : byteSize (c :: cs) = c.utf8Size + byteSize cs :=
  rfl

theorem byteSize_append (front rest : List Char) :
    byteSize (front ++ rest) = byteSize front + byteSize rest := by
  induction front with
  | nil => exact (Nat.zero_add _).symm
  | cons c front ih => rw [List.cons_append, byteSize_cons, byteSize_cons, ih, Nat.add_assoc]

theorem byteSize_eq_zero_iff {cs : List Char} : byteSize cs = 0 ↔ cs = [] := by
  cases cs with
  | nil => exact ⟨fun _ => rfl, fun _ => rfl⟩
  | cons c rest =>
      have positive := c.utf8Size_pos
      rw [byteSize_cons]
      exact ⟨fun none_ => absurd none_ (by omega), nofun⟩

theorem indentSize_eq (line : List Char) : indentSize line = byteSize (line.takeWhile isBlank) := by
  unfold indentSize
  induction line.takeWhile isBlank with
  | nil => rfl
  | cons c rest ih => rw [List.foldr_cons, ih, byteSize_cons]

/-- As many bytes as some characters take are dropped as these characters. -/
theorem dropBytes?_append (front rest : List Char) :
    dropBytes? (byteSize front) (front ++ rest) = some rest := by
  induction front with
  | nil => exact exists_dropBytes?_zero rest
  | cons c front ih =>
      have positive := c.utf8Size_pos
      obtain ⟨size, bytes⟩ : ∃ size, byteSize (c :: front) = size + 1 :=
        Nat.exists_eq_succ_of_ne_zero (byteSize_eq_zero_iff.not.mpr (List.cons_ne_nil c front))
      rw [bytes, List.cons_append, dropBytes?]
      rw [byteSize_cons] at bytes
      rw [if_pos (by omega), ← bytes, Nat.add_sub_cancel_left, ih]

theorem dropBytes?_eq_some_iff {size : Nat} {cs rest : List Char} :
    dropBytes? size cs = some rest ↔ ∃ front, cs = front ++ rest ∧ byteSize front = size := by
  constructor
  · intro dropped
    fun_induction dropBytes? size cs with
    | case1 cs => exact ⟨[], Option.some.inj dropped, rfl⟩
    | case2 => cases dropped
    | case3 size c later fits ih =>
        obtain ⟨front, rfl, bytes⟩ := ih dropped
        refine ⟨c :: front, rfl, ?_⟩
        rw [byteSize_cons]
        omega
    | case4 => cases dropped
  · rintro ⟨front, rfl, rfl⟩
    exact dropBytes?_append front rest

/-- A beginning of a line that takes no more bytes than its blanks is made of these. -/
theorem prefix_takeWhile {front rest : List Char}
    (within : byteSize front ≤ indentSize (front ++ rest)) :
    front <+: (front ++ rest).takeWhile isBlank := by
  have blanks := List.takeWhile_prefix (l := front ++ rest) isBlank
  obtain inside | ⟨more, whole⟩ := List.prefix_or_prefix_of_prefix (List.prefix_append front rest)
    blanks
  · exact inside
  · rw [indentSize_eq] at within
    have bytes : byteSize ((front ++ rest).takeWhile isBlank) + byteSize more = byteSize front := by
      rw [← byteSize_append, whole]
    obtain rfl : more = [] := byteSize_eq_zero_iff.mp (by omega)
    rw [List.append_nil] at whole
    exact ⟨[], by rw [List.append_nil, whole]⟩

/-! ## The common beginning -/

/-- Some visible line begins with no more blanks than all of them do. -/
theorem exists_commonIndent {lines : List (List Char)}
    (some_ : ∃ line ∈ lines, line.all isBlank = false) :
    ∃ line ∈ lines, line.all isBlank = false ∧ indentSize line = commonIndent lines := by
  obtain ⟨line, listed, visible⟩ := some_
  have counted : indentSize line ∈ (lines.filter fun cs => !cs.all isBlank).map indentSize :=
    List.mem_map_of_mem (List.mem_filter.mpr ⟨listed, by rw [visible]; rfl⟩)
  obtain ⟨least, found⟩ := Option.isSome_iff_exists.mp (List.isSome_min?_of_mem counted)
  obtain ⟨shortest, member, size⟩ := List.mem_map.mp (List.min?_mem found)
  obtain ⟨there, seen⟩ := List.mem_filter.mp member
  refine ⟨shortest, there, by simpa using seen, ?_⟩
  rw [commonIndent, found, Option.getD_some, size]

/-- How a line of a block is written: without the beginning of blanks that takes the common number of
bytes, and without the blanks at its end. A blank line is left empty. -/
structure Dedents (common : Nat) (line : List Char) (out : String) : Prop where
  blank : line.all isBlank = true → out = ""
  visible : line.all isBlank = false → ∃ front rest, line = front ++ rest ∧
    (∀ c ∈ front, isBlank c = true) ∧ byteSize front = common ∧ out.toList = trimEnd rest
  indent : line.all isBlank = false → indentSize line = common + indentSize out.toList

theorem all_append_of_blank {front : List Char} (blank : ∀ c ∈ front, isBlank c = true)
    (rest : List Char) : (front ++ rest).all isBlank = rest.all isBlank := by
  rw [List.all_append, List.all_eq_true.mpr blank, Bool.true_and]

theorem dedents_of_blockLine? {common : Nat} {line : List Char} {out : String}
    (within : line.all isBlank = false → common ≤ indentSize line)
    (written : blockLine? common line = some out) : Dedents common line out := by
  unfold blockLine? at written
  split at written
  next blank =>
    obtain rfl := Option.some.inj written
    have notVisible : line.all isBlank ≠ false := by simp [blank]
    exact ⟨fun _ => rfl, fun visible => absurd visible notVisible,
      fun visible => absurd visible notVisible⟩
  next notBlank =>
    have visible : line.all isBlank = false := by simpa using notBlank
    obtain ⟨rest, dropped, rfl⟩ := Option.map_eq_some_iff.mp written
    obtain ⟨front, rfl, bytes⟩ := dropBytes?_eq_some_iff.mp dropped
    have blanks : ∀ c ∈ front, isBlank c = true := fun c listed =>
      List.mem_takeWhile_imp ((prefix_takeWhile (bytes ▸ within visible)).subset listed)
    have seen : rest.all isBlank = false := all_append_of_blank blanks rest ▸ visible
    refine ⟨fun blank => absurd blank notBlank, fun _ => ?_, fun _ => ?_⟩
    · exact ⟨front, rest, rfl, blanks, bytes, String.toList_ofList⟩
    · rw [String.toList_ofList, indentSize_eq, indentSize_eq, List.takeWhile_append_of_pos blanks,
        byteSize_append, bytes, Text.takeWhile_trimEnd seen]

/-- **What a block is written as.** Each line is written without what all have in common. -/
theorem dedents_of_blockLines? {text : String} {outs : List String}
    (written : blockLines? text = some outs) :
    List.Forall₂ (Dedents (commonIndent (Text.lines text.toList))) (Text.lines text.toList) outs := by
  have each := mapM_eq_some_iff.mp written
  have listed : List.Forall₂ (fun line out => line ∈ Text.lines text.toList ∧
      blockLine? (commonIndent (Text.lines text.toList)) line = some out)
      (Text.lines text.toList) outs :=
    (List.forall₂_and_left _ _).mpr ⟨fun _ member => member, each⟩
  exact listed.imp fun line out ⟨member, here⟩ =>
    dedents_of_blockLine? (commonIndent_le member) here

/-- **When a block cannot be written.** The common number of bytes is not that of characters that a
visible line starts with. -/
theorem blockLines?_eq_none_iff {text : String} :
    blockLines? text = none ↔ ∃ line ∈ Text.lines text.toList, line.all isBlank = false ∧
      ∀ front rest, line = front ++ rest →
        byteSize front ≠ commonIndent (Text.lines text.toList) := by
  rw [blockLines?, mapM_eq_none_iff]
  refine exists_congr fun line => and_congr_right fun _ => ?_
  unfold blockLine?
  split
  next blank => simp [blank]
  next notBlank =>
    rw [Option.map_eq_none_iff, Option.eq_none_iff_forall_ne_some]
    constructor
    · intro none_
      refine ⟨by simpa using notBlank, fun front rest cut bytes => none_ rest ?_⟩
      exact dropBytes?_eq_some_iff.mpr ⟨front, cut, bytes⟩
    · rintro ⟨-, uncut⟩ rest dropped
      obtain ⟨front, cut, bytes⟩ := dropBytes?_eq_some_iff.mp dropped
      exact uncut front rest cut bytes

/-! ## Writing a block again -/

/-- What is written for a line of a text is a line, which does not end in a blank. -/
theorem Dedents.ends {common : Nat} {line : List Char} {out : String}
    (dedents : Dedents common line out) (noFeed : '\n' ∉ line) :
    '\n' ∉ out.toList ∧ trimEnd out.toList = out.toList := by
  cases blank : line.all isBlank with
  | true =>
      rw [dedents.blank blank]
      exact ⟨List.not_mem_nil, rfl⟩
  | false =>
      obtain ⟨front, rest, rfl, -, -, same⟩ := dedents.visible blank
      rw [same]
      refine ⟨fun feed => noFeed (List.mem_append_right _ ?_), Text.trimEnd_trimEnd rest⟩
      exact (List.rdropWhile_prefix isBlank rest).subset feed

/-- A line that is written is as visible as the line of the text. -/
theorem Dedents.all_eq {common : Nat} {line : List Char} {out : String}
    (dedents : Dedents common line out) : out.toList.all isBlank = line.all isBlank := by
  cases blank : line.all isBlank with
  | true =>
      rw [dedents.blank blank]
      rfl
  | false =>
      obtain ⟨front, rest, rfl, blanks, -, same⟩ := dedents.visible blank
      rw [all_append_of_blank blanks] at blank
      rw [same, Text.all_trimEnd blank]

/-- The lines that are written have nothing in common at their beginnings any more. -/
theorem commonIndent_dedented {lines : List (List Char)} {outs : List String}
    (dedents : List.Forall₂ (Dedents (commonIndent lines)) lines outs) :
    commonIndent (outs.map String.toList) = 0 := by
  by_cases some_ : ∃ line ∈ lines, line.all isBlank = false
  -- The line that begins with the fewest blanks loses all of them.
  · obtain ⟨line, listed, visible, size⟩ := exists_commonIndent some_
    obtain ⟨out, member, here⟩ := exists_of_forall₂ dedents listed
    have indent := here.indent visible
    have least := commonIndent_le (List.mem_map_of_mem (f := String.toList) member)
      (here.all_eq.trans visible)
    omega
  · have none_ : (outs.map String.toList).filter (fun cs => !cs.all isBlank) = [] := by
      rw [List.filter_eq_nil_iff]
      refine List.forall_mem_map.mpr fun out member => ?_
      obtain ⟨line, listed, here⟩ := exists_of_forall₂ dedents.flip member
      have blank : line.all isBlank = true := by
        by_contra visible
        exact some_ ⟨line, listed, by simpa using visible⟩
      rw [here.all_eq, blank]
      exact Bool.false_ne_true
    rw [commonIndent, none_]
    rfl

/-- **A block that has been written is written again unchanged.** -/
theorem blockLines?_written {text : String} {outs : List String}
    (written : blockLines? text = some outs) :
    blockLines? (String.join (outs.map (· ++ "\n"))) = some outs := by
  have dedents := dedents_of_blockLines? written
  have each : ∀ out ∈ outs, '\n' ∉ out.toList ∧ trimEnd out.toList = out.toList := by
    intro out member
    obtain ⟨line, listed, here⟩ := exists_of_forall₂ dedents.flip member
    exact here.ends (Text.notMem_of_mem_lines listed)
  have cut : Text.lines (String.join (outs.map (· ++ "\n"))).toList = outs.map String.toList := by
    have feeds : (String.join (outs.map (· ++ "\n"))).toList = Text.feeds outs :=
      toList_text ⟨"", outs, []⟩
    rw [feeds]
    refine Text.lines_feeds fun out member => ⟨(each out member).1, fun last => ?_⟩
    rw [← (each out member).2] at last
    cases Text.getLast?_trimEnd last
  rw [blockLines?, cut, commonIndent_dedented dedents, mapM_eq_some_iff,
    List.forall₂_map_left_iff]
  refine List.forall₂_same.mpr fun out member => ?_
  rw [blockLine?_zero, blockLine, (each out member).2, String.ofList_toList]
  split
  next blank =>
    have empty : trimEnd out.toList = [] :=
      List.rdropWhile_eq_nil_iff.mpr (List.all_eq_true.mp blank)
    rw [(each out member).2] at empty
    rw [String.toList_eq_nil_iff.mp empty]
  next => rfl

/-! ## Blocks that can be written -/

theorem byteSize_of_single {cs : List Char} (single : ∀ c ∈ cs, c.utf8Size = 1) :
    byteSize cs = cs.length := by
  induction cs with
  | nil => rfl
  | cons c rest ih =>
      obtain ⟨here, later⟩ := List.forall_mem_cons.mp single
      rw [byteSize_cons, here, ih later, List.length_cons, Nat.add_comm]

/-- Where all blanks take one byte, any of them are a common beginning. -/
theorem exists_blockLines?_of_single {text : String}
    (single : ∀ line ∈ Text.lines text.toList, ∀ c ∈ line.takeWhile isBlank, c.utf8Size = 1) :
    ∃ outs, blockLines? text = some outs := by
  rw [← Option.ne_none_iff_exists']
  intro none_
  obtain ⟨line, listed, visible, uncut⟩ := blockLines?_eq_none_iff.mp none_
  have within := commonIndent_le listed visible
  rw [indentSize_eq, byteSize_of_single (single line listed)] at within
  generalize commonIndent (Text.lines text.toList) = common at uncut within
  have cut : line = (line.takeWhile isBlank).take common ++
      ((line.takeWhile isBlank).drop common ++ line.dropWhile isBlank) := by
    rw [← List.append_assoc, List.take_append_drop, List.takeWhile_append_dropWhile]
  refine uncut _ _ cut ?_
  rw [byteSize_of_single fun c member => single line listed c (List.mem_of_mem_take member),
    List.length_take, Nat.min_eq_left within]

/-- **Lines that share their beginning.** If every visible line begins with all blanks of one of them,
these blanks are what is left out. -/
theorem blockLines?_of_shared {text : String} {front : List Char}
    (shared : ∀ line ∈ Text.lines text.toList, line.all isBlank = false → front <+: line)
    (whole : ∃ line ∈ Text.lines text.toList, line.all isBlank = false ∧
      line.takeWhile isBlank = front) :
    blockLines? text =
      some ((Text.lines text.toList).map fun line => blockLine (line.drop front.length)) := by
  obtain ⟨shortest, there, seen, rfl⟩ := whole
  have blanks : ∀ c ∈ shortest.takeWhile isBlank, isBlank c = true := fun c member =>
    List.mem_takeWhile_imp member
  have common : commonIndent (Text.lines text.toList) = byteSize (shortest.takeWhile isBlank) := by
    apply Nat.le_antisymm
    · rw [← indentSize_eq]
      exact commonIndent_le there seen
    · obtain ⟨line, listed, visible, size⟩ := exists_commonIndent ⟨shortest, there, seen⟩
      obtain ⟨rest, rfl⟩ := shared line listed visible
      rw [← size, indentSize_eq, List.takeWhile_append_of_pos blanks, byteSize_append]
      exact Nat.le_add_right _ _
  rw [blockLines?, common]
  refine mapM_eq_some_map fun line listed => ?_
  unfold blockLine? blockLine
  split
  next blank =>
    have dropped : (line.drop (shortest.takeWhile isBlank).length).all isBlank = true :=
      List.all_eq_true.mpr fun c member =>
        List.all_eq_true.mp blank c (List.mem_of_mem_drop member)
    rw [if_pos dropped]
  next notBlank =>
    have visible : line.all isBlank = false := by simpa using notBlank
    obtain ⟨rest, rfl⟩ := shared line listed visible
    rw [all_append_of_blank blanks] at visible
    rw [dropBytes?_append, List.drop_left, if_neg (by simp [visible]), Option.map_some]

/-! ## Writing blocks -/

theorem foldl_line_eq (w : SourceWriter) (texts : List String) :
    texts.foldl line w =
      { w with lines := w.lines ++ texts.map fun text => Entry.written w.unit ⟨w.depth, text⟩ } := by
  induction texts generalizing w with
  | nil => rw [List.foldl_nil, List.map_nil, List.append_nil]
  | cons text rest ih =>
      rw [List.foldl_cons, ih, line_eq, List.append_assoc]
      rfl

theorem Entry.written_zero (unit text : String) : Entry.written unit ⟨0, text⟩ = text := by
  unfold written
  split
  next empty => exact (String.isEmpty_iff.mp empty).symm
  next => exact String.empty_append

/-- **Blocks are indented anew.** A block cannot be written exactly if the common number of bytes ends
inside of a character of a visible line. Otherwise it is written as one line for each line of its text:
without what the visible lines have in common at their beginnings, so that the differences of their
indentations stay, without the blanks at its end, and after the writer's indentation. Without
indentation, what has been written is written again unchanged. There is such a writer if all blanks at
the beginnings of lines take one byte; and if every visible line begins with all blanks of one of them,
these are what is left out. -/
theorem block?_reindents (w : SourceWriter) (text : String) :
    (w.block? text = none ↔ ∃ line ∈ Text.lines text.toList, line.all isBlank = false ∧
      ∀ front rest, line = front ++ rest →
        byteSize front ≠ commonIndent (Text.lines text.toList)) ∧
    (∀ after, w.block? text = some after → ∃ outs : List String,
      List.Forall₂ (Dedents (commonIndent (Text.lines text.toList))) (Text.lines text.toList) outs ∧
      (∀ out ∈ outs, IsOneLine out) ∧
      after = { w with
        lines := w.lines ++ outs.map fun out => Entry.written w.unit ⟨w.depth, out⟩ } ∧
      ∀ other : SourceWriter, other.depth = 0 →
        other.block? (String.join (outs.map (· ++ "\n"))) =
          some { other with lines := other.lines ++ outs }) ∧
    ((∀ line ∈ Text.lines text.toList, ∀ c ∈ line.takeWhile isBlank, c.utf8Size = 1) →
      ∃ after, w.block? text = some after) ∧
    ∀ front : List Char,
      (∀ line ∈ Text.lines text.toList, line.all isBlank = false → front <+: line) →
      (∃ line ∈ Text.lines text.toList, line.all isBlank = false ∧
        line.takeWhile isBlank = front) →
      w.block? text = some { w with
        lines := w.lines ++ (Text.lines text.toList).map fun line =>
          Entry.written w.unit ⟨w.depth, blockLine (line.drop front.length)⟩ } := by
  refine ⟨?_, fun after wrote => ?_, fun single => ?_, fun front shared whole => ?_⟩
  · rw [block?, Option.map_eq_none_iff, blockLines?_eq_none_iff]
  · obtain ⟨outs, written, rfl⟩ := Option.map_eq_some_iff.mp wrote
    have dedents := dedents_of_blockLines? written
    refine ⟨outs, dedents, fun out member => ?_, foldl_line_eq w outs, fun other top => ?_⟩
    · obtain ⟨line, listed, here⟩ := exists_of_forall₂ dedents.flip member
      exact (here.ends (Text.notMem_of_mem_lines listed)).1
    · rw [block?, blockLines?_written written, Option.map_some, foldl_line_eq, top]
      simp only [Entry.written_zero, List.map_id']
  · obtain ⟨outs, written⟩ := exists_blockLines?_of_single single
    exact ⟨_, by rw [block?, written, Option.map_some]⟩
  · rw [block?, blockLines?_of_shared shared whole, Option.map_some, foldl_line_eq, List.map_map]
    rfl

/-- A condition with a body, which is put into a function. -/
theorem block?_reindents_condition :
    let w : SourceWriter := ⟨"  ", ["fn f() \x7b"], ["fn f()"]⟩
    let text := "\t\tif x \x7b\n\t\t\ty(); \n \n\t\t\x7d\n"
    (∀ line ∈ Text.lines text.toList, ∀ c ∈ line.takeWhile isBlank, c.utf8Size = 1) ∧
      (∃ after, w.block? text = some after) ∧
      (∀ line ∈ Text.lines text.toList, line.all isBlank = false → ['\t', '\t'] <+: line) ∧
      w.block? text = some { w with
        lines := ["fn f() \x7b", "  if x \x7b", "  \ty();", "", "  \x7d"] } := by
  intro w text
  have single : ∀ line ∈ Text.lines text.toList, ∀ c ∈ line.takeWhile isBlank, c.utf8Size = 1 := by
    have checked : (Text.lines text.toList).all (fun line =>
        (line.takeWhile isBlank).all fun c => c.utf8Size == 1) = true := by
      decide +kernel
    simpa only [List.all_eq_true, beq_iff_eq] using checked
  have shared : ∀ line ∈ Text.lines text.toList, line.all isBlank = false →
      ['\t', '\t'] <+: line := by
    decide +kernel
  have whole : ∃ line ∈ Text.lines text.toList, line.all isBlank = false ∧
      line.takeWhile isBlank = ['\t', '\t'] := by
    decide +kernel
  obtain ⟨-, -, writes, leavesOut⟩ := block?_reindents w text
  refine ⟨single, writes single, shared, (leavesOut _ shared whole).trans ?_⟩
  decide +kernel

/-- A line that begins with an ideographic space, which takes three bytes, and one that begins with two
spaces. -/
theorem block?_wideBlank : block? ⟨"\t", [], []⟩ "\u3000x\n  y" = none := by
  decide +kernel

end SourceWriter

end VariantMerge
