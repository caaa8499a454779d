import VariantMerge.ModuleUnit
import VariantMerge.Proofs.Emit.Scopes
import VariantMerge.Proofs.Entries

/-!
# Module units can be written

A block is written again line by line, less the blank beginning that all its lines have in common.
A text that starts with a character that is not blank has none, so it can always be written as a
block. Emitted code starts with its first line (`Code.text_starts`); so a module unit of such
sources has a text whenever its indentation can be built (`ModuleUnit.render_eq`).
-/

namespace VariantMerge

def StartsVisibly (text : String) : Prop :=
  ∃ c ∈ text.toList.head?, Text.isBlank c = false

/-! ## Blocks -/

namespace SourceWriter

/-- Nothing is dropped from no bytes. -/
theorem exists_dropBytes?_zero (cs : List Char) : dropBytes? 0 cs = some cs := by
  cases cs <;> rfl

/-- The first line of a text has its first character. -/
theorem lines_of_visible {c : Char} (visible : Text.isBlank c = false) (rest : List Char) :
    ∃ line more, Text.lines (c :: rest) = (c :: line) :: more := by
  have noFeed : c ≠ '\n' := by
    rintro rfl
    cases visible
  have noReturn : c ≠ '\r' := by
    rintro rfl
    cases visible
  rw [Text.lines]
  · cases Text.lines rest with
    | nil => exact ⟨[], [], rfl⟩
    | cons line more => exact ⟨line, more, rfl⟩
  · exact fun same => absurd same noFeed
  · exact fun _ same => absurd same noReturn

/-- No visible line begins with fewer blanks than all of them do. -/
theorem commonIndent_le {lines : List (List Char)} {line : List Char} (listed : line ∈ lines)
    (visible : line.all Text.isBlank = false) : commonIndent lines ≤ indentSize line := by
  have counted : indentSize line ∈ (lines.filter fun cs => !cs.all Text.isBlank).map indentSize :=
    List.mem_map_of_mem (List.mem_filter.mpr ⟨listed, by rw [visible]; rfl⟩)
  unfold commonIndent
  obtain ⟨least, found⟩ := Option.isSome_iff_exists.mp (List.isSome_min?_of_mem counted)
  rw [found, Option.getD_some]
  exact (List.min?_eq_some_iff.mp found).2 _ counted

/-- Lines of which one is not indented have no common beginning. -/
theorem commonIndent_eq_zero {c : Char} (visible : Text.isBlank c = false) (line : List Char)
    (more : List (List Char)) : commonIndent ((c :: line) :: more) = 0 := by
  have size : indentSize (c :: line) = 0 := by simp [indentSize, visible]
  exact Nat.le_zero.mp (size ▸ commonIndent_le List.mem_cons_self (by simp [visible]))

/-- Lines open and close no scope. -/
theorem foldl_line_scopes (lines : List String) (w : SourceWriter) :
    (lines.foldl line w).scopes = w.scopes := by
  induction lines generalizing w with
  | nil => rfl
  | cons text rest ih => rw [List.foldl_cons, ih, line_scopes]

/-- A line of a block without common beginning, as it is written. -/
def blockLine (cs : List Char) : String :=
  if cs.all Text.isBlank then "" else String.ofList (Text.trimEnd cs)

/-- Without a common indent, a line of a block is written as it is. -/
theorem blockLine?_zero (cs : List Char) : blockLine? 0 cs = some (blockLine cs) := by
  rw [blockLine?, exists_dropBytes?_zero, blockLine]
  split <;> rfl

/-- The lines of a block that starts visibly have no common beginning. -/
theorem blockLines?_eq {text : String} (starts : StartsVisibly text) :
    blockLines? text = some ((Text.lines text.toList).map blockLine) := by
  obtain ⟨c, first, visible⟩ := starts
  obtain ⟨rest, chars⟩ := List.head?_eq_some_iff.mp first
  obtain ⟨first, more, lines⟩ := lines_of_visible visible rest
  rw [blockLines?, chars, lines, commonIndent_eq_zero visible]
  exact mapM_eq_some_map fun cs _ => blockLine?_zero cs

/-- A block that does not begin with a blank has no common indent. -/
theorem block?_eq (w : SourceWriter) {text : String} (starts : StartsVisibly text) :
    w.block? text = some (((Text.lines text.toList).map blockLine).foldl line w) := by
  rw [block?, blockLines?_eq starts, Option.map_some]

end SourceWriter

/-! ## Emitted code -/

namespace SourceWriter

def Extends (w after : SourceWriter) : Prop :=
  w.lines <+: after.lines

/-- Writers that are extended twice are extended. -/
theorem Extends.trans {first second third : SourceWriter} (early : Extends first second)
    (late : Extends second third) : Extends first third :=
  List.IsPrefix.trans early late

/-- A line is added at the end. -/
theorem line_extends (w : SourceWriter) (text : String) : Extends w (w.line text) := by
  unfold line
  split <;> exact List.prefix_append _ _

/-- An empty line is added at the end, if at all. -/
theorem blank_extends (w : SourceWriter) : Extends w w.blank := by
  unfold blank
  split
  · exact w.line_extends ""
  · exact List.prefix_refl _

/-- The line that begins a scope is added at the end. -/
theorem beginScope_extends (w : SourceWriter) (header : String) :
    Extends w (w.beginScope header) :=
  w.line_extends _

/-- The line that closes a scope is added at the end. -/
theorem close_extends (w : SourceWriter) (suffix : String) : Extends w (w.close suffix) :=
  line_extends { w with scopes := w.scopes.tail } _

end SourceWriter

namespace Code

mutual

/-- Code is added at the end, by induction on its pieces. -/
theorem write_extends (w : SourceWriter) : (code : Code) → w.Extends (code.write w)
  | .line text => w.line_extends text
  | .blank => w.blank_extends
  | .scope header body =>
    (w.beginScope_extends header).trans
      ((writeAll_extends (w.beginScope header) body).trans (SourceWriter.close_extends _ _))

/-- Pieces of code are added one after the other. -/
theorem writeAll_extends (w : SourceWriter) : (codes : List Code) → w.Extends (writeAll w codes)
  | [] => List.prefix_refl _
  | code :: rest => (write_extends w code).trans (writeAll_extends (code.write w) rest)

end

/-- The text of code starts like its first line. -/
theorem text_starts {indent : Indent} {first : String} {rest : List Code} {result : String}
    (written : text indent (.line first :: rest) = .ok result) (starts : StartsVisibly first) :
    StartsVisibly result := by
  cases built : indent.unit? with
  | none =>
      rw [text, SourceWriter.new, built] at written
      cases written
  | some unit =>
      rw [text_eq_ok built, Except.ok.injEq] at written
      obtain ⟨c, head, visible⟩ := starts
      obtain ⟨tail, chars⟩ := List.head?_eq_some_iff.mp head
      have nonempty : ¬ first.isEmpty = true := by
        rw [String.isEmpty_iff]
        rintro rfl
        cases chars
      have opened : (SourceWriter.line ⟨unit, [], []⟩ first).lines = [first] := by
        rw [SourceWriter.line, if_neg nonempty]
        exact congrArg (· :: []) String.empty_append
      obtain ⟨more, lines⟩ := writeAll_extends (SourceWriter.line ⟨unit, [], []⟩ first) rest
      rw [opened] at lines
      refine ⟨c, ?_, visible⟩
      rw [← written, writeAll, write, SourceWriter.text, ← lines]
      simp [chars, String.toList_join]

end Code

/-! ## Units -/

namespace ModuleUnit

/-- A writer after a source that starts visibly. -/
def withSource (w : SourceWriter) (source : GeneratedSource) : SourceWriter :=
  ((Text.lines source.text.toList).map SourceWriter.blockLine).foldl SourceWriter.line w.blank

/-- A writer after the whole unit of a module. -/
def written (unit : String) (host : ModulePath) (sources : List GeneratedSource) : SourceWriter :=
  let started := SourceWriter.line ⟨unit, [], []⟩ (banner host)
  if sources.isEmpty then started
  else
    let opened := (started.attr "allow(unused_imports, dead_code, clippy::all)").beginModule ""
      wrapper
    ((sources.foldl withSource (opened.uses (importLines host sources))).close "").line
      ("pub use self::" ++ wrapper ++ "::*;")

/-- Adding sources cannot fail if none of them begins with a blank. -/
theorem foldlM_addSource {sources : List GeneratedSource}
    (visible : ∀ source ∈ sources, StartsVisibly source.text) (w : SourceWriter) :
    sources.foldlM addSource w = .ok (sources.foldl withSource w) := by
  induction sources generalizing w with
  | nil => rfl
  | cons source rest ih =>
      obtain ⟨first, later⟩ := List.forall_mem_cons.mp visible
      have added : addSource w source = .ok (withSource w source) := by
        rw [addSource, w.blank.block?_eq first]
        rfl
      rw [List.foldlM_cons, added, List.foldl_cons]
      exact ih later (withSource w source)

/-- Sources leave no scope open. -/
theorem foldl_withSource_scopes (sources : List GeneratedSource) (w : SourceWriter) :
    (sources.foldl withSource w).scopes = w.scopes := by
  induction sources generalizing w with
  | nil => rfl
  | cons source rest ih =>
      rw [List.foldl_cons, ih, withSource, SourceWriter.foldl_line_scopes,
        SourceWriter.blank_scopes]

/-- **A unit has a text.** If its indentation can be built, sources that start visibly can be put
into a unit. -/
theorem render_eq {config : Config} {unit : String} (built : config.indent.unit? = some unit)
    (host : ModulePath) {sources : List GeneratedSource}
    (visible : ∀ source ∈ sources, StartsVisibly source.text) :
    render config host sources = .ok (written unit host sources).text := by
  have new : SourceWriter.new config.indent = .ok ⟨unit, [], []⟩ := by
    rw [SourceWriter.new, built]
  unfold render written
  rw [new]
  by_cases empty : sources.isEmpty = true
  · rw [if_pos empty]
    exact (if_pos empty).trans (SourceWriter.finish_eq_ok (SourceWriter.line_scopes _ _))
  · let started := SourceWriter.line ⟨unit, [], []⟩ (banner host)
    let opened := (started.attr "allow(unused_imports, dead_code, clippy::all)").beginModule ""
      wrapper
    let filled := sources.foldl withSource (opened.uses (importLines host sources))
    -- Sources leave the scopes as they are, so the wrapper is the only one to be closed.
    have inside : filled.scopes = [SourceWriter.joinWords ["", "mod", wrapper]] := by
      rw [foldl_withSource_scopes, SourceWriter.uses, SourceWriter.foldl_line_scopes]
      rfl
    have closed : filled.endScope = .ok (filled.close "") := by
      rw [SourceWriter.endScope, SourceWriter.endScopeWith, inside]
    rw [if_neg empty]
    refine (if_neg empty).trans ?_
    rw [foldlM_addSource visible]
    change filled.endScope.bind _ = _
    rw [closed]
    refine SourceWriter.finish_eq_ok ?_
    rw [SourceWriter.line_scopes, SourceWriter.close_scopes, inside, List.tail_cons]

end ModuleUnit

end VariantMerge
