import VariantMerge.Proofs.Emit.Unit
import VariantMerge.Proofs.Text.Lines

/-!
# Indentation is layout only

Two writers that indent differently and are given the same code write the same lines, apart from the
blanks at their beginnings (`Code.writeAll_sameButIndent`). This holds of blocks as well, since the
common beginning of the lines of a block that starts visibly is empty whatever the indentation is; so
it holds of whole module units (`ModuleUnit.written_sameButIndent`).
-/

namespace VariantMerge

/-- A level of indentation is made of blanks that end no line. -/
theorem Indent.isIndent {indent : Indent} {unit : String} (built : indent.unit? = some unit) :
    Text.IsIndent unit.toList := by
  cases indent with
  | tabs =>
      obtain rfl : "\t" = unit := Option.some.inj built
      have tab : "\t".toList = ['\t'] := rfl
      intro c listed
      rw [tab] at listed
      obtain rfl := List.mem_singleton.mp listed
      decide
  | spaces width =>
      rw [Indent.unit?] at built
      split at built
      · obtain rfl := Option.some.inj built
        intro c listed
        rw [String.toList_ofList] at listed
        obtain rfl := List.eq_of_mem_replicate listed
        decide
      · cases built

namespace SourceWriter

/-! ## Lines as they are written -/

/-- The lines are the same but for their indentation, and end alike. A written line can hold line
feeds of its own, and then it is several lines of the text. -/
structure SameLine (line other : String) : Prop where
  text : Text.SameButIndent (line.toList ++ ['\n']) (other.toList ++ ['\n'])
  last : line.toList.getLast? = other.toList.getLast?

/-- A line is the same as itself. -/
theorem SameLine.refl (line : String) : SameLine line line := ⟨rfl, rfl⟩

/-- Only one of two empty lines is never indented. -/
theorem SameLine.isEmpty_eq {line other : String} (same : SameLine line other) :
    line.isEmpty = other.isEmpty := by
  rw [Bool.eq_iff_iff, String.isEmpty_iff, String.isEmpty_iff, ← String.toList_eq_nil_iff,
    ← String.toList_eq_nil_iff, ← List.getLast?_eq_none_iff, ← List.getLast?_eq_none_iff,
    same.last]

/-- Lines that are the same are so with any indentation. -/
theorem SameLine.indented {line other indent otherIndent : String} (same : SameLine line other)
    (indents : Text.IsIndent indent.toList) (otherIndents : Text.IsIndent otherIndent.toList)
    (nonempty : ¬ line.isEmpty = true) : SameLine (indent ++ line) (otherIndent ++ other) := by
  have some_ : line.toList ≠ [] := fun empty =>
    nonempty (String.isEmpty_iff.mpr (String.toList_eq_nil_iff.mp empty))
  have others : other.toList ≠ [] := fun empty =>
    nonempty (same.isEmpty_eq.trans (String.isEmpty_iff.mpr (String.toList_eq_nil_iff.mp empty)))
  constructor
  · rw [String.toList_append, String.toList_append, List.append_assoc, List.append_assoc]
    exact ((Text.sameButIndent_indented indents (by simp)).trans same.text).trans
      (Text.sameButIndent_indented otherIndents (by simp)).symm
  · rw [String.toList_append, String.toList_append, List.getLast?_append_of_ne_nil _ some_,
      List.getLast?_append_of_ne_nil _ others, same.last]

/-! ## Writers -/

/-- The writers have the same scopes open, and have written the same lines but for indentation. -/
structure SameButIndent (w other : SourceWriter) : Prop where
  indents : Text.IsIndent w.unit.toList
  otherIndents : Text.IsIndent other.unit.toList
  lines : List.Forall₂ SameLine w.lines other.lines
  scopes : w.scopes = other.scopes

/-- Any number of levels indents. -/
theorem isIndent_join {unit : String} (indents : Text.IsIndent unit.toList) (depth : Nat) :
    Text.IsIndent (String.join (List.replicate depth unit)).toList := by
  intro c listed
  rw [String.toList_join, List.mem_flatMap] at listed
  obtain ⟨level, repeated, inside⟩ := listed
  obtain rfl := List.eq_of_mem_replicate repeated
  exact indents c inside

namespace SameButIndent

/-- Two new writers differ in their unit only. -/
theorem new {indent otherIndent : Indent} {unit otherUnit : String}
    (built : indent.unit? = some unit) (otherBuilt : otherIndent.unit? = some otherUnit) :
    SameButIndent ⟨unit, [], []⟩ ⟨otherUnit, [], []⟩ :=
  ⟨Indent.isIndent built, Indent.isIndent otherBuilt, .nil, rfl⟩

variable {w other : SourceWriter}

/-- Lines that are the same but for indentation may be written to the two. -/
theorem lineSame (same : SameButIndent w other) {text otherText : String}
    (line : SameLine text otherText) : SameButIndent (w.line text) (other.line otherText) := by
  have depth : w.depth = other.depth := congrArg List.length same.scopes
  unfold SourceWriter.line
  rw [← line.isEmpty_eq, ← depth]
  split
  next empty =>
    exact ⟨same.indents, same.otherIndents,
      List.rel_append same.lines (.cons (.refl "") .nil), same.scopes⟩
  next nonempty =>
    have written := line.indented (isIndent_join same.indents w.depth)
      (isIndent_join same.otherIndents w.depth) nonempty
    exact ⟨same.indents, same.otherIndents, List.rel_append same.lines (.cons written .nil),
      same.scopes⟩

/-- A line is written by both at the same depth. -/
theorem line (same : SameButIndent w other) (text : String) :
    SameButIndent (w.line text) (other.line text) :=
  same.lineSame (.refl text)

/-- Lines are written by both, one after the other. -/
theorem foldl_line {texts otherTexts : List String} (same : SameButIndent w other)
    (each : List.Forall₂ SameLine texts otherTexts) :
    SameButIndent (texts.foldl SourceWriter.line w) (otherTexts.foldl SourceWriter.line other) :=
  List.rel_foldl (fun _ _ same _ _ line => same.lineSame line) same each

/-- Whether an empty line may follow is told by the last character and the number of lines. -/
theorem takesBlank_eq (same : SameButIndent w other) : w.takesBlank = other.takesBlank := by
  have count : w.lines.length = other.lines.length := same.lines.length_eq
  have lasts : List.Forall₂ SameLine w.lines.reverse other.lines.reverse :=
    List.rel_reverse same.lines
  unfold takesBlank
  rw [List.getLast?_eq_head?_reverse, List.getLast?_eq_head?_reverse, count]
  generalize w.lines.reverse = here, other.lines.reverse = there at lasts ⊢
  cases lasts with
  | nil => rfl
  | cons head _ =>
      simp only [List.head?_cons, head.last]

/-- An empty line is written by both or by neither. -/
theorem blank (same : SameButIndent w other) : SameButIndent w.blank other.blank := by
  unfold SourceWriter.blank
  rw [same.takesBlank_eq]
  split
  · exact same.line ""
  · exact same

/-- A scope begins in both. -/
theorem beginScope (same : SameButIndent w other) (header : String) :
    SameButIndent (w.beginScope header) (other.beginScope header) := by
  obtain ⟨indents, otherIndents, lines, scopes⟩ :=
    same.line (if header.isEmpty then "\x7b" else header ++ " \x7b")
  exact ⟨indents, otherIndents, lines, congrArg (List.cons header) same.scopes⟩

/-- A scope is closed in both. -/
theorem close (same : SameButIndent w other) (suffix : String) :
    SameButIndent (w.close suffix) (other.close suffix) := by
  have closed : SameButIndent { w with scopes := w.scopes.tail }
      { other with scopes := other.scopes.tail } :=
    ⟨same.indents, same.otherIndents, same.lines, congrArg List.tail same.scopes⟩
  exact closed.line _

end SameButIndent

/-- Lines that are the same make up texts that are. -/
theorem sameButIndent_join {lines others : List String} (same : List.Forall₂ SameLine lines others) :
    Text.SameButIndent (String.join (lines.map (· ++ "\n"))).toList
      (String.join (others.map (· ++ "\n"))).toList := by
  have cut (lines : List String) : (String.join (lines.map (· ++ "\n"))).toList =
      lines.flatMap fun line => line.toList ++ ['\n'] := by
    rw [String.toList_join, List.flatMap_map]
    simp only [String.toList_append]
    rfl
  rw [cut, cut]
  induction same with
  | nil => rfl
  | @cons line other rest otherRest head _ ih =>
      have here := head.text
      unfold Text.SameButIndent at here ih ⊢
      simp only [List.flatMap_cons, List.append_assoc, List.singleton_append]
      rw [Text.lines_feed line.toList, Text.lines_feed other.toList, List.map_append,
        List.map_append, here, ih]

/-- The texts that have been written are the same but for indentation. -/
theorem SameButIndent.text {w other : SourceWriter} (same : SameButIndent w other) :
    Text.SameButIndent w.text.toList other.text.toList :=
  sameButIndent_join same.lines

/-! ## Blocks -/

/-- Lines of two blocks without common beginnings, which differ in the blanks in front. -/
theorem SameLine.blockLine {line other : List Char} (noFeed : '\n' ∉ line) (noFeed' : '\n' ∉ other)
    (same : Text.trimStart line = Text.trimStart other) :
    SameLine (blockLine line) (blockLine other) := by
  have blank : line.all Text.isBlank = other.all Text.isBlank := by
    rw [Bool.eq_iff_iff, ← Text.trimStart_eq_nil_iff, ← Text.trimStart_eq_nil_iff, same]
  unfold SourceWriter.blockLine
  rw [← blank]
  split
  next => exact .refl ""
  next visible =>
    rw [Bool.not_eq_true] at visible
    have ends : Text.trimEnd (Text.trimStart other) ≠ [] :=
      Text.trimEnd_ne_nil (Text.all_trimStart (blank ▸ visible))
    -- Each is one line of the text: its blank beginning, and what both have in common.
    have single {line : List Char} (noFeed : '\n' ∉ line) :
        Text.lines (Text.trimEnd line ++ ['\n']) = [Text.trimEnd line] := by
      refine Text.lines_singleton (fun feed => noFeed ?_) fun last => ?_
      · exact (List.rdropWhile_prefix Text.isBlank line).subset feed
      · cases Text.getLast?_trimEnd last
    have blankFront (line : List Char) :
        ∀ c ∈ line.takeWhile Text.isBlank, Text.isBlank c = true :=
      fun _ => List.mem_takeWhile_imp
    have here := Text.trimEnd_eq visible
    have there := Text.trimEnd_eq (blank ▸ visible)
    constructor
    · rw [Text.SameButIndent, String.toList_ofList, String.toList_ofList, single noFeed,
        single noFeed', here, there, same, List.map_singleton, List.map_singleton,
        Text.trimStart_append (blankFront line), Text.trimStart_append (blankFront other)]
    · rw [String.toList_ofList, String.toList_ofList, here, there, same,
        List.getLast?_append_of_ne_nil _ ends, List.getLast?_append_of_ne_nil _ ends]

/-- The lines of texts that are the same but for indentation are so as lines of blocks. -/
theorem forall₂_blockLine {text other : List Char} (same : Text.SameButIndent text other) :
    List.Forall₂ SameLine ((Text.lines text).map blockLine) ((Text.lines other).map blockLine) := by
  have trimmed : List.Forall₂ (fun line other => Text.trimStart line = Text.trimStart other)
      (Text.lines text) (Text.lines other) := by
    have equal : List.Forall₂ Eq ((Text.lines text).map Text.trimStart)
        ((Text.lines other).map Text.trimStart) := by
      rw [List.forall₂_eq_eq_eq]
      exact same
    rwa [List.forall₂_map_left_iff, List.forall₂_map_right_iff] at equal
  rw [List.forall₂_map_left_iff, List.forall₂_map_right_iff]
  have left : List.Forall₂ (fun line other => '\n' ∉ line ∧
      Text.trimStart line = Text.trimStart other) (Text.lines text) (Text.lines other) :=
    (List.forall₂_and_left _ _).mpr ⟨fun _ => Text.notMem_of_mem_lines, trimmed⟩
  have both : List.Forall₂ (fun other line => '\n' ∉ other ∧ '\n' ∉ line ∧
      Text.trimStart line = Text.trimStart other) (Text.lines other) (Text.lines text) :=
    (List.forall₂_and_left _ _).mpr ⟨fun _ => Text.notMem_of_mem_lines, left.flip⟩
  exact both.flip.imp fun _ _ ⟨noFeed', noFeed, same⟩ => .blockLine noFeed noFeed' same

end SourceWriter

/-! ## Emitted code -/

namespace Code

open SourceWriter (SameButIndent)

mutual

/-- Writing a piece of code keeps writers the same but for indentation. -/
theorem write_sameButIndent {w other : SourceWriter} (same : SameButIndent w other) :
    (code : Code) → SameButIndent (code.write w) (code.write other)
  | .line text => same.line text
  | .blank => same.blank
  | .scope header body => (writeAll_sameButIndent (same.beginScope header) body).close ""

/-- Code is written by both, by induction on its pieces. -/
theorem writeAll_sameButIndent {w other : SourceWriter} (same : SameButIndent w other) :
    (codes : List Code) → SameButIndent (writeAll w codes) (writeAll other codes)
  | [] => same
  | code :: rest => writeAll_sameButIndent (write_sameButIndent same code) rest

end

/-- Code that stands by itself has a text with any indentation that can be built, and the texts are
the same but for indentation. -/
theorem exists_text_sameButIndent {indent otherIndent : Indent} {unit otherUnit : String}
    (built : indent.unit? = some unit) (otherBuilt : otherIndent.unit? = some otherUnit)
    (codes : List Code) :
    ∃ text other, Code.text indent codes = .ok text ∧ Code.text otherIndent codes = .ok other ∧
      Text.SameButIndent text.toList other.toList :=
  ⟨_, _, text_eq_ok built codes, text_eq_ok otherBuilt codes,
    (writeAll_sameButIndent (SameButIndent.new built otherBuilt) codes).text⟩

end Code

/-! ## Module units -/

/-- The sources are the same but for the indentation of their texts. -/
structure GeneratedSource.SameButIndent (source other : GeneratedSource) : Prop where
  name : source.name = other.name
  kind : source.kind = other.kind
  interface : source.interface = other.interface
  module : source.module = other.module
  context : source.context = other.context
  text : Text.SameButIndent source.text.toList other.text.toList

namespace ModuleUnit

open SourceWriter (SameButIndent)

variable {sources others : List GeneratedSource}

/-- The imports of sources do not depend on their texts. -/
theorem importLines_congr (same : List.Forall₂ GeneratedSource.SameButIndent sources others)
    (host : ModulePath) : importLines host sources = importLines host others := by
  have each (f : UseContext → List String) :
      sources.flatMap (fun source => f source.context) =
        others.flatMap fun source => f source.context := by
    rw [← List.forall₂_eq_eq_eq]
    refine List.rel_flatMap same fun source other same => ?_
    rw [same.context, List.forall₂_eq_eq_eq]
  unfold importLines
  rw [each UseContext.uses, each fun context =>
    (context.globs.filter (· != host)).map fun module => "use " ++ module.display ++ "::*;"]

/-- Sources are written by both, one after the other. -/
theorem foldl_withSource_sameButIndent
    (same : List.Forall₂ GeneratedSource.SameButIndent sources others) {w other : SourceWriter}
    (writers : SameButIndent w other) :
    SameButIndent (sources.foldl withSource w) (others.foldl withSource other) :=
  List.rel_foldl (fun _ _ writers _ _ same =>
    writers.blank.foldl_line (SourceWriter.forall₂_blockLine same.text)) writers same

/-- Units of sources that are the same but for indentation are so too. -/
theorem written_sameButIndent {indent otherIndent : Indent} {unit otherUnit : String}
    (built : indent.unit? = some unit) (otherBuilt : otherIndent.unit? = some otherUnit)
    (host : ModulePath) (same : List.Forall₂ GeneratedSource.SameButIndent sources others) :
    SameButIndent (written unit host sources) (written otherUnit host others) := by
  have started := (SameButIndent.new built otherBuilt).line (banner host)
  have empty : sources.isEmpty = others.isEmpty := by cases same <;> rfl
  unfold written
  rw [← empty, importLines_congr same host]
  split
  · exact started
  · have opened := (started.line "#[allow(unused_imports, dead_code, clippy::all)]").beginScope
      (SourceWriter.joinWords ["", "mod", wrapper])
    have imported := opened.foldl_line (List.forall₂_same.mpr fun line _ =>
      SourceWriter.SameLine.refl line : List.Forall₂ _
        (SourceWriter.distinctTrimmed (importLines host others)) _)
    exact ((foldl_withSource_sameButIndent same imported).close "").line _

end ModuleUnit

end VariantMerge
