import VariantMerge.Proofs.Generation.Drafts
import VariantMerge.Proofs.Generation.Indentation
import VariantMerge.Proofs.Token.Pieces

/-!
# Wrapping sources

A module unit is put together line by line: each line of a source is written again, with other
blanks around it. That keeps the tokens of a source if none of them spans lines (`ReadsByLines`),
and then the tokens of the unit are those of the wrapper, of its imports and of the sources in order
(`Generation.render_tokens`). A literal that spans lines becomes another one, as its later lines are
indented like all others (`Generation.render_spoils`).
-/

namespace VariantMerge

/-! ## Lines that are written -/

namespace Lexer

/-- Every blank may stand between tokens. -/
theorem isSpace_of_isBlank {c : Char} (blank : Text.isBlank c = true) : isSpace c = true := by
  have ascii (low : c.toNat ≤ 0x7F) : Text.isBlankAscii c = true := by
    change c.val.toNat ≤ _ at low
    simp only [Text.isBlank, Text.isBlankAscii, Bool.or_eq_true, Bool.and_eq_true,
      decide_eq_true_eq, beq_iff_eq, UInt32.le_iff_toNat_le, ← UInt32.toNat_inj,
      UInt32.reduceToNat] at blank ⊢
    omega
  rw [isSpace, blank, Bool.true_or, Bool.true_or, Bool.and_true, Bool.or_eq_true, decide_eq_true_eq]
  by_cases low : c.toNat ≤ 0x7F
  · exact .inl (ascii low)
  · exact .inr (Nat.lt_of_not_le low)

/-- Blanks before a line do not change its pieces. -/
theorem cut?_indented {indent line : List Char} {pieces : List Piece}
    (indents : Text.IsIndent indent) (cut : cut? line = some pieces) :
    cut? (indent ++ line) = some pieces := by
  rw [cut?, List.length_append]
  exact cutWithin_blanks indent (fun c listed => isSpace_of_isBlank (indents c listed).1) cut

/-- Nothing is behind a text of one line. -/
theorem restOfLine_eq_nil {cs : List Char} (oneLine : '\n' ∉ cs) : (restOfLine cs).2 = [] := by
  fun_induction restOfLine cs with
  | case1 => rfl
  | case2 => exact absurd List.mem_cons_self oneLine
  | case3 => exact absurd (List.mem_cons_of_mem _ List.mem_cons_self) oneLine
  | case4 c rest noFeed noReturn text after found ih =>
      rw [found] at ih
      exact ih (not_or.mp (List.mem_cons.not.mp oneLine)).2

/-- A comment up to the end of its line gives no token. -/
theorem cut?_lineComment {c : Char} {rest : List Char} (bang : c ≠ '!') (slash : c ≠ '/')
    (feed : c ≠ '\n') (oneLine : '\n' ∉ rest) : cut? ('/' :: '/' :: c :: rest) = some [] := by
  have after : (restOfLine (c :: rest)).2 = [] :=
    restOfLine_eq_nil (List.mem_cons.not.mpr (not_or.mpr ⟨feed.symm, oneLine⟩))
  have comment : plainComment? ('/' :: '/' :: c :: rest) = some [] := by
    rw [plainComment?.eq_def, docComment?_plain bang slash]
    simp [bang, after]
  rw [cut?, List.length_cons, cutWithin_cons (by decide) (cutFirst?_of_comment comment)]
  rfl

end Lexer

namespace SourceWriter

/-- The text of a writer is cut where its lines are cut. -/
theorem cut?_text {w : SourceWriter} {pieces : List Piece}
    (cut : Lexer.cutLines? (w.lines.map String.toList) = some pieces) :
    Lexer.cut? w.text.toList = some pieces := by
  have feeds : Text.feeds w.lines = (w.lines.map String.toList).flatMap (· ++ ['\n']) := by
    rw [List.flatMap_map]
    rfl
  rw [toList_text, feeds]
  exact Lexer.cut?_flatMap cut

/-- The writer indents with blanks, and its lines are cut into these tokens. -/
structure Holds (w : SourceWriter) (pieces : List Piece) : Prop where
  indents : Text.IsIndent w.unit.toList
  cut : Lexer.cutLines? (w.lines.map String.toList) = some pieces

namespace Holds

variable {w : SourceWriter} {pieces added : List Piece}

/-- At the beginning nothing is held. -/
theorem start {unit : String} (indents : Text.IsIndent unit.toList) : Holds ⟨unit, [], []⟩ [] :=
  ⟨indents, rfl⟩

/-- A line adds its pieces. -/
theorem line (holds : w.Holds pieces) {text : String} (cut : Lexer.cut? text.toList = some added) :
    (w.line text).Holds (pieces ++ added) := by
  have append {written : String} (cut : Lexer.cut? written.toList = some added) :
      Lexer.cutLines? ((w.lines ++ [written]).map String.toList) = some (pieces ++ added) := by
    rw [List.map_append]
    exact Lexer.cutLines?_append holds.cut
      (Lexer.cutLines?_cons_eq_some_iff.mpr ⟨added, [], cut, rfl, List.append_nil added⟩)
  rw [SourceWriter.line]
  split
  next empty =>
    obtain rfl := String.isEmpty_iff.mp empty
    exact ⟨holds.indents, append cut⟩
  next =>
    refine ⟨holds.indents, append ?_⟩
    rw [String.toList_append]
    exact Lexer.cut?_indented (isIndent_join holds.indents w.depth) cut

/-- An empty line adds none. -/
theorem blank (holds : w.Holds pieces) : w.blank.Holds pieces := by
  rw [SourceWriter.blank]
  split
  · have added : (w.line "").Holds (pieces ++ []) := holds.line rfl
    rwa [List.append_nil] at added
  · exact holds

/-- Lines add their pieces one after the other. -/
theorem lines (holds : w.Holds pieces) {texts : List String}
    (cut : Lexer.cutLines? (texts.map String.toList) = some added) :
    (texts.foldl SourceWriter.line w).Holds (pieces ++ added) := by
  induction texts generalizing w pieces added with
  | nil =>
      obtain rfl : [] = added := Option.some.inj cut
      rwa [List.append_nil]
  | cons text rest ih =>
      obtain ⟨first, others, early, later, rfl⟩ := Lexer.cutLines?_cons_eq_some_iff.mp cut
      rw [← List.append_assoc]
      exact ih (holds.line early) later

/-- A scope begins with the pieces of its header and a brace. -/
theorem beginScope (holds : w.Holds pieces) (header : String)
    (cut : Lexer.cut? (if header.isEmpty then "\x7b" else header ++ " \x7b").toList = some added) :
    (w.beginScope header).Holds (pieces ++ added) :=
  ⟨(holds.line cut).indents, (holds.line cut).cut⟩

/-- A scope ends with a brace and what is behind it. -/
theorem close (holds : w.Holds pieces) {suffix : String}
    (cut : Lexer.cut? ("\x7d" ++ suffix).toList = some added) :
    (w.close suffix).Holds (pieces ++ added) :=
  line (w := { w with scopes := w.scopes.tail }) ⟨holds.indents, holds.cut⟩ cut

end Holds

end SourceWriter

/-! ## Sources -/

/-- Each line of the text can be cut by itself and does not end in a blank: no token of the text
spans lines, and no comment does. -/
def ReadsByLines (text : String) : Prop :=
  ∀ line ∈ Text.lines text.toList, (Lexer.cut? line).isSome = true ∧ Text.trimEnd line = line

instance (text : String) : Decidable (ReadsByLines text) :=
  inferInstanceAs (Decidable (∀ line ∈ Text.lines text.toList,
    (Lexer.cut? line).isSome = true ∧ Text.trimEnd line = line))

namespace ReadsByLines

variable {text : String} (byLines : ReadsByLines text)

include byLines

/-- A block is written with the very lines of the text. -/
theorem blockLines : ((Text.lines text.toList).map SourceWriter.blockLine).map String.toList =
    Text.lines text.toList := by
  rw [List.map_map]
  conv_rhs => rw [← List.map_id (Text.lines text.toList)]
  refine List.map_congr_left fun line listed => ?_
  have trimmed := (byLines line listed).2
  have written : SourceWriter.blockLine line = String.ofList line := by
    rw [SourceWriter.blockLine, trimmed]
    split
    next blank =>
      have nothing : Text.trimEnd line = [] :=
        List.rdropWhile_eq_nil_iff.mpr (List.all_eq_true.mp blank)
      rw [← trimmed, nothing]
    next => rfl
  rw [Function.comp_apply, written, String.toList_ofList, id]

/-- A text that is cut as a whole is cut by lines, if none of its tokens goes over a line end. -/
theorem cutLines? {pieces : List Piece} (cut : Lexer.cut? text.toList = some pieces) :
    Lexer.cutLines? (Text.lines text.toList) = some pieces := by
  have each (lines : List (List Char)) (among : lines ⊆ Text.lines text.toList) :
      ∃ pieces, Lexer.cutLines? lines = some pieces := by
    induction lines with
    | nil => exact ⟨[], rfl⟩
    | cons line rest ih =>
        obtain ⟨first, cut⟩ :=
          Option.isSome_iff_exists.mp (byLines line (among List.mem_cons_self)).1
        obtain ⟨others, later⟩ := ih fun other listed => among (List.mem_cons_of_mem _ listed)
        exact ⟨_, Lexer.cutLines?_cons_eq_some_iff.mpr ⟨first, others, cut, later, rfl⟩⟩
  obtain ⟨found, lines⟩ := each _ (List.Subset.refl _)
  rwa [lines, ← Lexer.cut?_of_lines lines]

end ReadsByLines

namespace SourceWriter.Holds

variable {w : SourceWriter} {pieces : List Piece}

/-- A source adds its own pieces. -/
theorem source (holds : w.Holds pieces) {source : GeneratedSource} {own : List Piece}
    (read : tokens? source.text = some own) (byLines : ReadsByLines source.text) :
    (ModuleUnit.withSource w source).Holds (pieces ++ own) := by
  refine holds.blank.lines ?_
  rw [byLines.blockLines]
  exact byLines.cutLines? (tokens?_eq_some_iff.mp read).1

/-- Sources are written one after the other. -/
theorem sources (holds : w.Holds pieces) {sources : List GeneratedSource} {own : List Piece}
    (read : tokensAll? (sources.map GeneratedSource.text) = some own)
    (byLines : ∀ source ∈ sources, ReadsByLines source.text) :
    (sources.foldl ModuleUnit.withSource w).Holds (pieces ++ own) := by
  induction sources generalizing w pieces own with
  | nil =>
      obtain rfl : [] = own := Option.some.inj read
      rwa [List.append_nil]
  | cons source rest ih =>
      obtain ⟨first, later⟩ := List.forall_mem_cons.mp byLines
      obtain ⟨body, others, early, behind, rfl⟩ := tokensAll?_cons_eq_some_iff.mp read
      rw [← List.append_assoc]
      exact ih (holds.source early first) behind later

end SourceWriter.Holds

/-! ## Units -/

namespace ModuleUnit

/-- The tokens in front of the imports: an attribute, and the header of the wrapper. -/
def opening : List Piece :=
  [.punct '#' false, .opened .bracket, .ident "allow", .opened .paren, .ident "unused_imports",
    .punct ',' false, .ident "dead_code", .punct ',' false, .ident "clippy", .punct ':' true,
    .punct ':' false, .ident "all", .closed .paren, .closed .bracket, .ident "mod", .ident wrapper,
    .opened .brace]

/-- The tokens behind the sources: the brace of the wrapper, and the import of what is in it. -/
def closing : List Piece :=
  [.closed .brace, .ident "pub", .ident "use", .ident "self", .punct ':' true, .punct ':' false,
    .ident wrapper, .punct ':' true, .punct ':' true, .punct '*' true, .punct ';' false]

/-- The first line of a unit is a comment. -/
theorem cut?_banner {host : ModulePath} (oneLine : '\n' ∉ host.display.toList) :
    Lexer.cut? (banner host).toList = some [] := by
  have comment {start stop : String} (rest : String)
      (starts : start.toList = '/' :: '/' :: ' ' :: rest.toList) (early : '\n' ∉ rest.toList)
      (late : '\n' ∉ stop.toList) :
      Lexer.cut? (start ++ host.display ++ stop).toList = some [] := by
    rw [String.toList_append, String.toList_append, starts]
    simp only [List.cons_append]
    refine Lexer.cut?_lineComment (by decide) (by decide) (by decide) ?_
    simp only [List.mem_append, early, oneLine, late, or_self, not_false_iff]
  exact comment "@generated by polystruct for `" (by decide +kernel) (by decide +kernel)
    (by decide +kernel)

/-- **The tokens of a unit.** -/
theorem written_holds {unit : String} (indents : Text.IsIndent unit.toList) {host : ModulePath}
    (oneLine : '\n' ∉ host.display.toList) {sources : List GeneratedSource}
    (nonempty : sources ≠ []) {imports own : List Piece}
    (imported : tokensAll? (SourceWriter.distinctTrimmed (importLines host sources)) = some imports)
    (read : tokensAll? (sources.map GeneratedSource.text) = some own)
    (byLines : ∀ source ∈ sources, ReadsByLines source.text) :
    (written unit host sources).Holds (opening ++ imports ++ own ++ closing) := by
  have allowed : Lexer.cut? "#[allow(unused_imports, dead_code, clippy::all)]".toList =
      some (opening.take 14) := by decide +kernel
  let header := SourceWriter.joinWords ["", "mod", wrapper]
  have scope : Lexer.cut? (if header.isEmpty then "\x7b" else header ++ " \x7b").toList =
      some (opening.drop 14) := by decide +kernel
  have brace : Lexer.cut? ("\x7d" ++ "").toList = some (closing.take 1) := by decide +kernel
  have exported : Lexer.cut? ("pub use self::" ++ wrapper ++ "::*;").toList =
      some (closing.drop 1) := by decide +kernel
  have started := (SourceWriter.Holds.start indents).line (cut?_banner oneLine)
  have opened := (started.line allowed).beginScope header scope
  have filled := (opened.lines (cutLines?_of_tokensAll? imported)).sources read byLines
  have closed := (filled.close brace).line exported
  rw [List.nil_append, List.nil_append, List.take_append_drop, List.append_assoc _ (closing.take 1),
    List.take_append_drop] at closed
  rw [written, if_neg (by simpa using nonempty)]
  exact closed

/-- A unit closes the groups that it opens. -/
theorem openAfter_unit {imports own : List Piece}
    {texts others : List String} (imported : tokensAll? texts = some imports)
    (read : tokensAll? others = some own) :
    openAfter [] (opening ++ imports ++ own ++ closing) = some [] := by
  have opens : openAfter [] opening = some [.brace] := by decide
  have closes : openAfter [.brace] closing = some [] := by decide
  rw [openAfter_append, openAfter_append, openAfter_append, opens, Option.bind_some,
    openAfter_tokensAll? imported, Option.bind_some, openAfter_tokensAll? read, Option.bind_some,
    closes]

end ModuleUnit

namespace Generation

/-- **Wrapping keeps tokens.** If no token of the sources spans lines, the tokens of their unit are
those that open the wrapper, those of the imports in order, those of the sources in order, and those
that close the wrapper. -/
theorem render_tokens {config : Config} {unit : String} (built : config.indent.unit? = some unit)
    {units : List SourceUnit} {host : ModulePath} (oneLine : '\n' ∉ host.display.toList)
    {chosen : List GeneratedSource} (nonempty : chosen ≠ [])
    (listed : chosen ⊆ (run config units).value.sources) {imports own : List Piece}
    (imported : tokensAll?
      (SourceWriter.distinctTrimmed (ModuleUnit.importLines host chosen)) = some imports)
    (read : tokensAll? (chosen.map GeneratedSource.text) = some own)
    (byLines : ∀ source ∈ chosen, ReadsByLines source.text) :
    ∃ text, ModuleUnit.render config host chosen = .ok text ∧
      tokens? text = some (ModuleUnit.opening ++ imports ++ own ++ ModuleUnit.closing) := by
  refine ⟨_, ModuleUnit.render_eq built host fun _ member =>
    startsVisibly_of_mem_sources (listed member), tokens?_eq_some_iff.mpr ⟨?_, ?_⟩⟩
  · exact SourceWriter.cut?_text (ModuleUnit.written_holds (Indent.isIndent built) oneLine nonempty
      imported read byLines).cut
  · exact ModuleUnit.openAfter_unit imported read

/-! ## An array that is as long as a text -/

def labelledType (label : String) : Ty :=
  .array (.named "u8") [.word label, .op ".", .word "len", .group .paren []]

/-- A trait without methods. -/
def bareTrait : TraitItem :=
  { markedTrait shapeTrait with entries := [] }

/-- A unit with an interface, and a shape whose only field is an array. -/
def labelledUnit (label : String) : SourceUnit where
  name := "shapes"
  module := .root
  items :=
    [.trait bareTrait,
      .struct ⟨[], .everywhere, "Square", .none,
        .named [⟨[], .everywhere, some "side", labelledType label⟩] true⟩,
      .impl ⟨[], [], .none, some ⟨false, .mk false [.mk "IShape" .none]⟩, .named "Square", []⟩]

def labelledConfig : Config :=
  { Config.default with derives := [], indent := .tabs, mode := .moduleUnits }

def labelledMerged (label : String) : MergedType :=
  { shapeMerged with
    variants := [⟨"Square", .root, .named, [⟨"side", labelledType label⟩]⟩]
    layout := ⟨[⟨0, labelledType label, [("Square", "side")]⟩], [("Square", [("side", 0)])]⟩
    members := ⟨[⟨"IShape", .root, []⟩]⟩ }

/-- The merged type of the unit, as it is written. -/
def labelledWriter (label : String) : SourceWriter :=
  let merged := labelledMerged label
  Code.writeAll ⟨"\t", [], []⟩
    (merged.declarationCode labelledConfig ++ merged.dispatchCode labelledConfig)

def labelledSource (label : String) : GeneratedSource :=
  ⟨"Shape", .merged, "IShape", .root, (labelledWriter label).text, ⟨[], []⟩⟩

/-- The source is one of the pass. -/
theorem labelledSource_subset (label : String) :
    [labelledSource label] ⊆ (run labelledConfig [labelledUnit label]).value.sources := by
  let scan := ScanResult.ofUnits labelledConfig.marker [labelledUnit label]
  let interface : Interface := ⟨⟨.root, bareTrait⟩, .absent⟩
  have built : labelledConfig.indent.unit? = some "\t" := rfl
  have first : mergedSource labelledConfig scan (labelledMerged label) =
      .ok (labelledSource label) := by
    rw [mergedSource_eq, Code.text_eq_ok built]
    rfl
  obtain ⟨sources, written⟩ := exists_sourcesOf built scan (labelledMerged label)
  obtain ⟨_, rest, made, -, rfl⟩ := sourcesOf_eq_ok_iff.mp written
  obtain rfl := Except.ok.inj (first.symm.trans made)
  have name : MergedType.nameFor "IShape" "I" = .ok "Shape" := by decide +kernel
  have generated : Generates labelledConfig scan interface (labelledMerged label)
      (labelledSource label :: rest) :=
    ⟨name, rfl, List.cons_ne_nil _ _, rfl, rfl, rfl, rfl, rfl, rfl, rfl, written⟩
  have interfaces : scan.interfaces = [interface] := rfl
  rw [(run_eq_added labelledConfig _).1, List.cons_subset]
  refine ⟨List.mem_flatMap.mpr ⟨interface, interfaces ▸ List.mem_cons_self, ?_⟩, List.nil_subset _⟩
  rw [added_eq, ofInterface_eq_ok_iff.mpr (.inr ⟨_, generated⟩)]
  exact List.mem_cons_self

/-- The lines of the source with this line for the array. -/
def labelledLines (field : String) : List String :=
  ["/// Discriminant of [`Shape`].",
    "#[derive(Clone, Copy, Debug, PartialEq, Eq, Hash)]",
    "pub enum ShapeTypeId \x7b",
    "\tSquare,",
    "\x7d",
    "",
    "/// Flattened value of every `IShape` implementor.",
    "#[derive(Default)]",
    "pub struct Shape \x7b",
    "\tpub current_type_id: ::core::option::Option<ShapeTypeId>,",
    field,
    "\x7d",
    "",
    "#[allow(unused_variables, clippy::let_unit_value)]",
    "impl IShape for Shape \x7b",
    "\x7d"]

/-- The characters of the source, if these are its lines. -/
theorem labelledSource_toList {label field : String}
    (lines : (labelledWriter label).lines = labelledLines field) :
    (labelledSource label).text.toList = Text.feeds (labelledLines field) := by
  rw [← lines, ← SourceWriter.toList_text]
  simp only [labelledSource]

/-- The source makes sense if its characters are cut into complete tokens. -/
theorem exists_labelledSource_tokens {label field : String}
    (lines : (labelledWriter label).lines = labelledLines field)
    (complete : (Lexer.cut? (Text.feeds (labelledLines field))).any fun own =>
      openAfter [] own = some [] ∧ .literal label ∈ own) :
    ∃ own, tokensAll? ([labelledSource label].map GeneratedSource.text) = some own ∧
      .literal label ∈ own := by
  obtain ⟨own, cut, sound⟩ := (Option.any_eq_true _ _).mp complete
  obtain ⟨closed, holds⟩ := of_decide_eq_true sound
  rw [← labelledSource_toList lines] at cut
  have read : tokens? (labelledSource label).text = some own :=
    tokens?_eq_some_iff.mpr ⟨cut, closed⟩
  exact ⟨own, tokensAll?_cons_eq_some_iff.mpr ⟨own, [], read, rfl, List.append_nil own⟩, holds⟩

/-- Its imports can be read as tokens. -/
theorem exists_labelledSource_imports (label : String) : ∃ imports, tokensAll?
    (SourceWriter.distinctTrimmed (ModuleUnit.importLines .root [labelledSource label])) =
      some imports := by
  have imports : ModuleUnit.importLines .root [labelledSource label] = ["use super::*;"] := rfl
  rw [imports]
  exact Option.isSome_iff_exists.mp (by decide +kernel)

/-- A text in one line stays as it is. -/
theorem render_tokens_line :
    let chosen := [labelledSource "\"ab\""]
    labelledConfig.indent.unit? = some "\t" ∧ '\n' ∉ ModulePath.root.display.toList ∧ chosen ≠ [] ∧
    chosen ⊆ (run labelledConfig [labelledUnit "\"ab\""]).value.sources ∧
    (∀ source ∈ chosen, ReadsByLines source.text) ∧
    ∃ imports own,
      tokensAll? (SourceWriter.distinctTrimmed (ModuleUnit.importLines .root chosen)) =
        some imports ∧
      tokensAll? (chosen.map GeneratedSource.text) = some own ∧
      ∃ text, ModuleUnit.render labelledConfig .root chosen = .ok text ∧
        tokens? text = some (ModuleUnit.opening ++ imports ++ own ++ ModuleUnit.closing) := by
  intro chosen
  have built : labelledConfig.indent.unit? = some "\t" := rfl
  have oneLine : '\n' ∉ ModulePath.root.display.toList := by decide
  have nonempty : chosen ≠ [] := List.cons_ne_nil _ _
  have listed := labelledSource_subset "\"ab\""
  have lines : (labelledWriter "\"ab\"").lines =
      labelledLines "\tpub u8_ab_len_0: [u8; \"ab\".len()]," := by decide +kernel
  have byLines : ∀ source ∈ chosen, ReadsByLines source.text := by
    rw [List.forall_mem_singleton, ReadsByLines, labelledSource_toList lines, labelledLines]
    repeat rw [Text.feeds_cons]
    decide +kernel
  obtain ⟨imports, imported⟩ := exists_labelledSource_imports "\"ab\""
  obtain ⟨own, read, -⟩ := exists_labelledSource_tokens lines (by
    rw [labelledLines]
    repeat rw [Text.feeds_cons]
    decide +kernel)
  exact ⟨built, oneLine, nonempty, listed, byLines, imports, own, imported, read,
    render_tokens built oneLine nonempty listed imported read byLines⟩

/-- The lines of the unit in which a text in two lines has been indented. -/
def spoiltLines : List String :=
  ["// @generated by polystruct for `crate`. Do not edit.",
    "#[allow(unused_imports, dead_code, clippy::all)]",
    "mod __polystruct \x7b",
    "\tuse super::*;",
    "",
    "\t/// Discriminant of [`Shape`].",
    "\t#[derive(Clone, Copy, Debug, PartialEq, Eq, Hash)]",
    "\tpub enum ShapeTypeId \x7b",
    "\t\tSquare,",
    "\t\x7d",
    "",
    "\t/// Flattened value of every `IShape` implementor.",
    "\t#[derive(Default)]",
    "\tpub struct Shape \x7b",
    "\t\tpub current_type_id: ::core::option::Option<ShapeTypeId>,",
    "\t\tpub u8_a_b_len_0: [u8; \"a",
    "\tb\".len()],",
    "\t\x7d",
    "",
    "\t#[allow(unused_variables, clippy::let_unit_value)]",
    "\timpl IShape for Shape \x7b",
    "\t\x7d",
    "\x7d",
    "pub use self::__polystruct::*;"]

/-- A text in two lines is another one when its second line is indented. -/
theorem render_spoils :
    let label := "\"a\nb\""
    let chosen := [labelledSource label]
    labelledConfig.check = .ok labelledConfig ∧ chosen ≠ [] ∧
    chosen ⊆ (run labelledConfig [labelledUnit label]).value.sources ∧
    ∃ imports own text tokens,
      tokensAll? (SourceWriter.distinctTrimmed (ModuleUnit.importLines .root chosen)) =
        some imports ∧
      tokensAll? (chosen.map GeneratedSource.text) = some own ∧
      ModuleUnit.render labelledConfig .root chosen = .ok text ∧ tokens? text = some tokens ∧
      .literal label ∈ own ∧ .literal label ∉ tokens ∧
      tokens ≠ ModuleUnit.opening ++ imports ++ own ++ ModuleUnit.closing := by
  intro label chosen
  have accepted : labelledConfig.check = .ok labelledConfig := by
    have sound : labelledConfig.problem? = none := by decide +kernel
    rw [Config.check, sound]
  have built : labelledConfig.indent.unit? = some "\t" := rfl
  have listed := labelledSource_subset "\"a\nb\""
  have lines : (labelledWriter "\"a\nb\"").lines =
      labelledLines "\tpub u8_a_b_len_0: [u8; \"a\nb\".len()]," := by decide +kernel
  obtain ⟨imports, imported⟩ := exists_labelledSource_imports "\"a\nb\""
  obtain ⟨own, read, kept⟩ := exists_labelledSource_tokens lines (by
    rw [labelledLines]
    repeat rw [Text.feeds_cons]
    decide +kernel)
  have spoilt : (ModuleUnit.written "\t" .root [labelledSource "\"a\nb\""]).lines =
      spoiltLines := by
    simp only [ModuleUnit.written, List.isEmpty_cons, Bool.false_eq_true, if_false, List.foldl_cons,
      List.foldl_nil, ModuleUnit.withSource, labelledSource_toList lines, labelledLines]
    repeat rw [Text.feeds_cons]
    decide +kernel
  have lost : (Lexer.cut? (Text.feeds spoiltLines)).any (fun tokens =>
      openAfter [] tokens = some [] ∧ .literal "\"a\nb\"" ∉ tokens) = true := by
    rw [spoiltLines]
    repeat rw [Text.feeds_cons]
    decide +kernel
  obtain ⟨tokens, cut, sound⟩ := (Option.any_eq_true _ _).mp lost
  obtain ⟨closed, lost⟩ := of_decide_eq_true sound
  rw [← spoilt, ← SourceWriter.toList_text] at cut
  have rendered := ModuleUnit.render_eq built .root fun source member =>
    startsVisibly_of_mem_sources (listed member)
  refine ⟨accepted, List.cons_ne_nil _ _, listed, imports, own, _, tokens, imported, read, rendered,
    tokens?_eq_some_iff.mpr ⟨cut, closed⟩, kept, lost, fun same => lost ?_⟩
  rw [same]
  exact List.mem_append_left _ (List.mem_append_right _ kept)

end Generation

end VariantMerge
