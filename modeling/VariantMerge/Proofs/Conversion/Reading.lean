import VariantMerge.Proofs.Emit.Reading
import VariantMerge.Proofs.Emit.Trees

/-!
# Reading emitted conversions

The three routines of a variant are read from their code as the assignments between fields and slots that
they stand for (`Conversion.ofCode?`). The reader knows of the merged type only what its declaration says:
its name, its visibility and its discriminant. What is assigned to the discriminant and what to a slot is
told from the text alone, so if the emitted names are names, the routines are read as they were meant
(`Conversion.ofCode?_code`).
-/

namespace VariantMerge

open LineReader

namespace Conversion

/-! ## Readers -/

/-- Where a copy of what is behind a reference begins. -/
def copyStart : String := "::core::clone::Clone::clone(&"

/-- How an assignment to a place is written: what stands before the place, between the place and the value,
and after the value. The place can be told from what comes after it, and no parenthesis is opened. -/
structure AssignmentStyle where
  before : String
  between : String
  after : String
  stops : Stops (between ++ copyStart)
  unopened : '(' ∉ before.toList ++ between.toList ++ after.toList

/-- The fields of a struct literal. -/
def literalStyle : AssignmentStyle := ⟨"", ": ", ",", by decide, by decide⟩

/-- The statements that assign to fields of the merged value. -/
def statementStyle : AssignmentStyle := ⟨"merged.", " = ", ";", by decide, by decide⟩

/-- The beginning of what assigns the discriminant, up to the name of the variant. -/
def tagPrefix (style : AssignmentStyle) (typeIdField typeIdName : String) : String :=
  style.before ++ typeIdField ++ style.between ++ Dispatch.someVariant ++ "(" ++ typeIdName ++ "::"

/-- Reads an assignment to the discriminant. -/
def readTag (style : AssignmentStyle) (typeIdField typeIdName : String) :
    LineReader SlotAssignment := do
  exactly (tagPrefix style typeIdField typeIdName)
  let variant ← named (")" ++ style.after)
  return .tag variant

/-- Reads an assignment to a slot. -/
def readSlot (style : AssignmentStyle) : LineReader SlotAssignment := do
  exactly style.before
  let slot ← named (style.between ++ copyStart)
  exactly "self."
  let field ← named (")" ++ style.after)
  return .slot slot field

/-- The assignment that a line stands for. -/
def readAssignment? (style : AssignmentStyle) (typeIdField typeIdName : String) :
    Code → Option SlotAssignment
  | .line text => (readTag style typeIdField typeIdName <|> readSlot style).run? text
  | _ => none

/-- A field of the variant with the slot of the argument that it is read from. -/
def readField? (argument : String) : Code → Option (String × String)
  | .line text => (do
      let field ← named ": "
      exactly copyStart
      exactly (argument ++ ".")
      let slot ← named ")"
      exactly ","
      return (field, slot)).run? text
  | _ => none

/-- Reads the head of the routine that reads the variant: its name and that of its argument. -/
def readFromHead (visibility merged : String) : LineReader (String × String) := do
  exactly (SourceWriter.visibilityPrefix visibility ++ "fn ")
  let routine ← named "("
  let argument ← named (": &" ++ merged ++ ") -> Self")
  return (routine, argument)

/-- Reads the head of a routine with these arguments. -/
def readHead (visibility arguments : String) : LineReader String := do
  exactly (SourceWriter.visibilityPrefix visibility ++ "fn ")
  named ("(" ++ arguments)

/-- The fields that are given to a fresh merged value, which is the default in all others. -/
def readCreates? (typeIdField typeIdName : String) (lines : List Code) :
    Option (List SlotAssignment) := do
  match lines.getLast? with
  | some (.line text) =>
    if text = ".." ++ Dispatch.defaultValue then
      lines.dropLast.mapM (readAssignment? literalStyle typeIdField typeIdName)
    else none
  | _ => none

/-- The conversions of a variant to a merged type of this name, visibility and discriminant. The conversions
by `From` call the routines and are not read any further. -/
def ofCode? (visibility merged typeIdField typeIdName : String) : List Code → Option Conversion
  | .line _ :: .scope implHead
      [.scope fromHead [.scope selfHead reads], .blank, .scope toHead [.scope literalHead creates],
        .blank, .scope writeHead writes] :: fromImpls =>
    if selfHead = "Self" ∧ literalHead = merged then do
      let variant ← (do
        exactly "impl "
        remaining).run? implHead
      let (fromMerged, argument) ← (readFromHead visibility merged).run? fromHead
      let toMerged ← (readHead visibility ("&self) -> " ++ merged)).run? toHead
      let writeInto ←
        (readHead visibility ("&self, merged: &mut " ++ merged ++ ")")).run? writeHead
      let reads ← reads.mapM (readField? argument)
      let creates ← readCreates? typeIdField typeIdName creates
      let writes ← writes.mapM (readAssignment? statementStyle typeIdField typeIdName)
      return {
        variant, merged, visibility, typeIdField, typeIdName
        names := ⟨fromMerged, toMerged, writeInto⟩
        reads, creates, writes, emitFromImpls := !fromImpls.isEmpty }
    else none
  | _ => none

end Conversion

/-! ## Named code -/

/-- All names in the assignment are made of characters of names. -/
def SlotAssignment.IsNamed : SlotAssignment → Prop
  | .tag variant => Text.isNameText variant = true
  | .slot place field => Text.isNameText place = true ∧ Text.isNameText field = true

/-- All names in the conversions are made of characters of names. -/
structure Conversion.IsNamed (conversion : Conversion) : Prop where
  fromMerged : Text.isNameText conversion.names.fromMerged = true
  toMerged : Text.isNameText conversion.names.toMerged = true
  writeInto : Text.isNameText conversion.names.writeInto = true
  reads : ∀ read ∈ conversion.reads,
    Text.isNameText read.1 = true ∧ Text.isNameText read.2 = true
  creates : ∀ assignment ∈ conversion.creates, assignment.IsNamed
  writes : ∀ assignment ∈ conversion.writes, assignment.IsNamed

namespace Conversion

variable {conversion : Conversion}

/-! ## Assignments -/

/-- An assignment as it is written in a style. -/
def styledText (conversion : Conversion) (style : AssignmentStyle) (assignment : SlotAssignment) :
    String :=
  style.before ++ (conversion.placeAndValue assignment).1 ++ style.between ++
    (conversion.placeAndValue assignment).2 ++ style.after

/-- A field of the fresh value is written as in a literal. -/
theorem createText_eq (assignment : SlotAssignment) :
    conversion.createText assignment = conversion.styledText literalStyle assignment := by
  refine String.toList_inj.mp ?_
  simp only [createText, styledText, literalStyle, String.toList_append, List.append_assoc]
  rfl

/-- A field of a value that exists is written as a statement. -/
theorem writeText_eq (assignment : SlotAssignment) :
    conversion.writeText assignment = conversion.styledText statementStyle assignment := by
  refine String.toList_inj.mp ?_
  simp only [writeText, styledText, statementStyle, String.toList_append, List.append_assoc]

section Style

variable (style : AssignmentStyle)

/-- A copy, cut where its reader does. -/
theorem cloneOf_chars (place : String) :
    (cloneOf place).toList = copyStart.toList ++ (place.toList ++ ")".toList) := by
  change (copyStart ++ place ++ ")").toList = _
  rw [String.toList_append, String.toList_append, List.append_assoc]

/-- An assignment to the discriminant, cut where its reader does. -/
theorem styledText_tag (variant : String) : (conversion.styledText style (.tag variant)).toList =
    (tagPrefix style conversion.typeIdField conversion.typeIdName).toList ++
      (variant.toList ++ ((")" ++ style.after).toList ++ [])) := by
  simp only [styledText, placeAndValue, tagText, tagPrefix, String.toList_append,
    List.append_assoc, List.append_nil]

/-- An assignment to a slot, cut where its reader does. -/
theorem styledText_slot (slot field : String) :
    (conversion.styledText style (.slot slot field)).toList =
      style.before.toList ++ (slot.toList ++ ((style.between ++ copyStart).toList ++
        ("self.".toList ++ (field.toList ++ ((")" ++ style.after).toList ++ []))))) := by
  simp only [styledText, placeAndValue, String.toList_append, cloneOf_chars, List.append_assoc,
    List.append_nil]

/-- No name goes on with the parenthesis that closes a copy. -/
theorem stops_closing : Stops (")" ++ style.after) := by
  rw [Stops, String.toList_append]
  rfl

/-- What is assigned to a slot is no discriminant: the only parenthesis that is opened stands behind
`clone`. -/
theorem readTag_slot {slot field : String} (slotPlain : Text.isNameText slot = true)
    (fieldPlain : Text.isNameText field = true) (typeIdField typeIdName : String) :
    readTag style typeIdField typeIdName (conversion.styledText style (.slot slot field)).toList =
      none := by
  refine bind_eq_none ?_
  have inName {name : String} (plain : Text.isNameText name = true) : '(' ∉ name.toList :=
    notMem_of_isNameText plain (by decide)
  have unopened := style.unopened
  simp only [List.mem_append, not_or] at unopened
  have left : '(' ∉ style.before.toList ++ (slot.toList ++ (style.between.toList ++
      "::core::clone::Clone::clone".toList)) := by
    simp only [List.mem_append, not_or]
    exact ⟨unopened.1.1, inName slotPlain, unopened.1.2, by decide⟩
  have right : '(' ∉ "&".toList ++ ("self.".toList ++ (field.toList ++ (")".toList ++
      style.after.toList))) := by
    simp only [List.mem_append, not_or]
    exact ⟨by decide, by decide, inName fieldPlain, by decide, unopened.2⟩
  have own : copyStart.toList = "::core::clone::Clone::clone".toList ++ '(' :: "&".toList := by
    decide +kernel
  have opening : "(".toList = ['('] := by decide
  rw [exactly, Option.map_eq_none_iff]
  refine Option.eq_none_iff_forall_ne_some.mpr fun rest found => ?_
  have whole := MergedType.stripBeginning?_eq_some_iff.mp found
  rw [styledText_slot, tagPrefix] at whole
  simp only [String.toList_append, own, opening, List.append_assoc, List.append_nil,
    List.cons_append, List.nil_append] at whole
  simp only [← List.append_assoc] at whole left right
  -- The text has one parenthesis, and what stands before it cannot end in both `Some` and `clone`.
  obtain ⟨before, -⟩ := (List.append_cons_inj_of_notMem left right).mp whole
  have ends := congrArg (fun cs : List Char => cs.reverse[1]?) before
  simp only [List.reverse_append] at ends
  exact absurd (Option.some.inj ends) (by decide)

/-- **An assignment is read as it was written.** -/
theorem readAssignment?_text {assignment : SlotAssignment} (names : assignment.IsNamed) :
    readAssignment? style conversion.typeIdField conversion.typeIdName
      (.line (conversion.styledText style assignment)) = some assignment := by
  have closing := stops_closing style
  refine run?_eq_some ?_
  cases assignment with
  | tag variant =>
      have plain : Text.isNameText variant = true := names
      refine orElse_eq_some ?_
      rw [styledText_tag]
      simp only [readTag, bind_run, exactly_append, Option.bind_some,
        named_append plain closing, pure_run]
  | slot slot field =>
      rw [orElse_eq (readTag_slot style names.1 names.2 _ _), styledText_slot]
      simp only [readSlot, bind_run, exactly_append, Option.bind_some,
        named_append names.1 style.stops, named_append names.2 closing, pure_run]

end Style

/-! ## Routines -/

/-- A field is read from its line, where the argument is called `merged`. -/
theorem readField?_text {argument field slot : String} (fieldPlain : Text.isNameText field = true)
    (slotPlain : Text.isNameText slot = true) (same : argument ++ "." = "merged.") :
    readField? argument (.line (readText field slot)) = some (field, slot) := by
  have whole : (readText field slot).toList = field.toList ++ (": ".toList ++
      (copyStart.toList ++ ("merged.".toList ++ (slot.toList ++ (")".toList ++
        (",".toList ++ [])))))) := by
    simp only [readText, String.toList_append, cloneOf_chars, List.append_assoc, List.append_nil]
  refine run?_eq_some ?_
  rw [whole, same]
  simp only [bind_run, named_append fieldPlain (show Stops ": " by decide), exactly_append,
    Option.bind_some, named_append slotPlain (show Stops ")" by decide), pure_run]

/-- The head of the reading routine tells its name and its argument. -/
theorem readFromHead_text (names : conversion.IsNamed) :
    (readFromHead conversion.visibility conversion.merged).run? conversion.fromMergedHead =
      some (conversion.names.fromMerged, conversion.argument) := by
  have argument : Text.isNameText conversion.argument = true := by
    unfold argument
    split <;> decide
  have stops : Stops (": &" ++ conversion.merged ++ ") -> Self") := by
    rw [Stops, String.toList_append, String.toList_append]
    rfl
  have whole : conversion.fromMergedHead.toList =
      (SourceWriter.visibilityPrefix conversion.visibility ++ "fn ").toList ++
        (conversion.names.fromMerged.toList ++ ("(".toList ++ (conversion.argument.toList ++
          ((": &" ++ conversion.merged ++ ") -> Self").toList ++ [])))) := by
    simp only [fromMergedHead, routineText, String.toList_append, List.append_assoc,
      List.append_nil]
  refine run?_eq_some ?_
  rw [whole]
  simp only [readFromHead, bind_run, exactly_append, Option.bind_some,
    named_append names.fromMerged (show Stops "(" by decide), named_append argument stops, pure_run]

/-- The name of a routine is read from its head. -/
theorem readHead_text {routine head arguments : String} (plain : Text.isNameText routine = true)
    (whole : head.toList = (conversion.routineText routine ++ arguments).toList) :
    (readHead conversion.visibility arguments).run? head = some routine := by
  have stops : Stops ("(" ++ arguments) := by
    rw [Stops, String.toList_append]
    rfl
  have cut : (conversion.routineText routine ++ arguments).toList =
      (SourceWriter.visibilityPrefix conversion.visibility ++ "fn ").toList ++
        (routine.toList ++ (("(" ++ arguments).toList ++ [])) := by
    simp only [routineText, String.toList_append, List.append_assoc, List.append_nil]
  refine run?_eq_some ?_
  rw [whole, cut]
  exact (bind_eq (exactly_append _ _)).trans (named_append plain stops [])

/-- What is assigned is read in each style from the lines that it is written to. -/
theorem readCreates?_text (named : ∀ assignment ∈ conversion.creates, assignment.IsNamed) :
    readCreates? conversion.typeIdField conversion.typeIdName
      ((conversion.creates.map fun assignment => .line (conversion.createText assignment)) ++
        [.line (".." ++ Dispatch.defaultValue)]) = some conversion.creates := by
  have each : ∀ assignment ∈ conversion.creates,
      readAssignment? literalStyle conversion.typeIdField conversion.typeIdName
        (.line (conversion.createText assignment)) = some assignment := by
    intro assignment listed
    rw [createText_eq]
    exact readAssignment?_text literalStyle (named assignment listed)
  rw [readCreates?, List.getLast?_concat, List.dropLast_concat]
  exact (if_pos rfl).trans (mapM_map_eq_some each)

/-- All assignments to a value that exists are read. -/
theorem readWrites?_text (named : ∀ assignment ∈ conversion.writes, assignment.IsNamed) :
    (conversion.writes.map fun assignment => Code.line (conversion.writeText assignment)).mapM
      (readAssignment? statementStyle conversion.typeIdField conversion.typeIdName) =
        some conversion.writes := by
  refine mapM_map_eq_some fun assignment listed => ?_
  rw [writeText_eq]
  exact readAssignment?_text statementStyle (named assignment listed)

/-- The fields are read, since the argument is called `merged` if there are any. -/
theorem readReads?_text (names : conversion.IsNamed) :
    (conversion.reads.map fun read => Code.line (readText read.1 read.2)).mapM
      (readField? conversion.argument) = some conversion.reads := by
  refine mapM_map_eq_some fun read listed => ?_
  have same : conversion.argument ++ "." = "merged." := by
    have some_ : conversion.reads.isEmpty = false :=
      List.isEmpty_eq_false_iff_exists_mem.mpr ⟨read, listed⟩
    rw [argument, some_]
    rfl
  exact readField?_text (names.reads read listed).1 (names.reads read listed).2 same

/-- **The conversions are read as they were written.** -/
theorem ofCode?_code (names : conversion.IsNamed) :
    ofCode? conversion.visibility conversion.merged conversion.typeIdField conversion.typeIdName
      conversion.code = some conversion := by
  have head : (exactly "impl " >>= fun _ => remaining).run? ("impl " ++ conversion.variant) =
      some conversion.variant := by
    refine run?_eq_some ?_
    rw [String.toList_append, bind_eq (exactly_append "impl " _), remaining, String.ofList_toList]
  have toHead : (readHead conversion.visibility ("&self) -> " ++ conversion.merged)).run?
      conversion.toMergedHead = some conversion.names.toMerged :=
    readHead_text names.toMerged (by
      simp only [toMergedHead, String.toList_append, List.append_assoc])
  have writeHead : (readHead conversion.visibility
      ("&self, merged: &mut " ++ conversion.merged ++ ")")).run? conversion.writeIntoHead =
        some conversion.names.writeInto :=
    readHead_text names.writeInto (by
      simp only [writeIntoHead, String.toList_append, List.append_assoc])
  have froms : (if conversion.emitFromImpls then conversion.fromImplsCode else []).isEmpty =
      !conversion.emitFromImpls := by
    cases conversion.emitFromImpls <;> rfl
  simp only [code, Code.attr, List.cons_append, List.nil_append, fromMergedCode, toMergedCode,
    writeIntoCode, ofCode?]
  simp only [and_self, if_true, head, readFromHead_text names, toHead, writeHead,
    Option.bind_eq_bind, Option.bind_some, readReads?_text names,
    readCreates?_text names.creates, readWrites?_text names.writes, froms, Bool.not_not, pure]

end Conversion

/-- The conversions of a variant as they are read from their code. -/
def MergedType.readConversion? (merged : MergedType) (config : Config) (codes : List Code) :
    Option Conversion :=
  Conversion.ofCode? merged.visibility merged.name config.typeIdField merged.typeIdName codes

/-- The conversions of a variant are read from what is emitted for it. -/
theorem MergedType.readConversion?_code {merged : MergedType} {config : Config} {variant : Variant}
    (names : (merged.conversion config variant).IsNamed) :
    merged.readConversion? config (merged.conversion config variant).code =
      some (merged.conversion config variant) :=
  Conversion.ofCode?_code names

end VariantMerge
