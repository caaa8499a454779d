import VariantMerge.Generation
import VariantMerge.Proofs.Emit.Scopes
import VariantMerge.Proofs.Except

/-!
# What the emitters write

Each emitter opens and closes the scopes of a writer on its own. What it writes is a tree all the same
(`Code.Writes`): every scope that it closes is the one that it opened, however many arms, members or
parameters there are in between. There is one lemma for each emitter, made from those of the emitters
that it calls, up to the texts of the two kinds of sources (`Generation.mergedSource_eq`,
`Generation.variantSource_eq`).
-/

namespace VariantMerge

namespace Code

/-- The emitter succeeds with any writer, and what it writes are these pieces of code. -/
def Writes (emit : SourceWriter → Except Failure SourceWriter) (codes : List Code) : Prop :=
  ∀ w, emit w = .ok (writeAll w codes)

/-- Pieces of code are written in two parts as they are together. -/
theorem writeAll_append (w : SourceWriter) (codes others : List Code) :
    writeAll w (codes ++ others) = writeAll (writeAll w codes) others := by
  induction codes generalizing w with
  | nil => rfl
  | cons code rest ih => exact ih (code.write w)

/-- Lines that are written one after the other. -/
theorem foldl_line {α : Type} (text : α → String) (values : List α) (w : SourceWriter) :
    values.foldl (fun w value => w.line (text value)) w =
      writeAll w (values.map fun value => line (text value)) := by
  induction values generalizing w with
  | nil => rfl
  | cons value rest ih => exact ih (w.line (text value))

/-- The scope that is closed after its body is the one that was opened before it. -/
theorem endScope_writeAll (w : SourceWriter) (header : String) (body : List Code) :
    (writeAll (w.beginScope header) body).endScope = .ok ((scope header body).write w) := by
  have inside : (writeAll (w.beginScope header) body).scopes = header :: w.scopes := by
    rw [writeAll_scopes, SourceWriter.beginScope_scopes]
  rw [SourceWriter.endScope, SourceWriter.endScopeWith, inside, write]

/-- Each piece but the first has an empty line before it. -/
theorem spaced_cons (code : Code) (rest : List Code) :
    spaced (code :: rest) = code :: rest.flatMap fun later => [blank, later] := by
  induction rest generalizing code with
  | nil => rfl
  | cons next rest ih =>
      rw [spaced, ih]
      rfl

/-- Nothing is lost between empty lines. -/
theorem mem_spaced {code : Code} {codes : List Code} (listed : code ∈ codes) :
    code ∈ spaced codes := by
  cases codes with
  | nil => exact absurd listed List.not_mem_nil
  | cons first rest =>
      rw [spaced_cons]
      obtain rfl | later := List.mem_cons.mp listed
      · exact List.mem_cons_self
      · exact List.mem_cons_of_mem _ (List.mem_flatMap.mpr ⟨code, later, by simp⟩)

namespace Writes

variable {emit next : SourceWriter → Except Failure SourceWriter}
  {fill : SourceWriter → SourceWriter} {codes others body : List Code}

/-- What cannot fail is written first. -/
theorem after (filled : ∀ w, fill w = writeAll w codes) (later : Writes emit others) :
    Writes (fun w => emit (fill w)) (codes ++ others) := by
  intro w
  change emit (fill w) = _
  rw [filled, writeAll_append]
  exact later _

/-- What two emitters write is written one after the other. -/
theorem bind (first : Writes emit codes) (later : Writes next others) :
    Writes (fun w => emit w >>= next) (codes ++ others) := by
  intro w
  change (emit w).bind next = _
  rw [first w, writeAll_append]
  exact later _

/-- An empty line before what is written next. -/
theorem bind_blank (first : Writes emit codes) (later : Writes next others) :
    Writes (fun w => emit w >>= fun written => next written.blank) (codes ++ blank :: others) := by
  have gap (w : SourceWriter) : w.blank = writeAll w [.blank] := rfl
  have behind := after gap later
  exact first.bind behind

/-- A scope with a body that cannot fail. -/
theorem scope (filled : ∀ w, fill w = writeAll w body) (header : String) :
    Writes (fun w => (fill (w.beginScope header)).endScope) [scope header body] := by
  intro w
  change (fill (w.beginScope header)).endScope = _
  rw [filled]
  exact endScope_writeAll w header body

/-- An emitter that closes the scope that was opened before it. -/
theorem inScope (inside : Writes emit body) (header : String) :
    Writes (fun w => emit (w.beginScope header) >>= SourceWriter.endScope)
      [.scope header body] := by
  intro w
  change (emit (w.beginScope header)).bind SourceWriter.endScope = _
  rw [inside]
  exact endScope_writeAll w header body

/-- An emitter that closes the two scopes that were opened before it. -/
theorem inScopes (inside : Writes emit body) (outer inner : String) :
    Writes (fun w => emit ((w.beginScope outer).beginScope inner) >>= fun filled =>
      filled.endScope >>= SourceWriter.endScope) [.scope outer [.scope inner body]] := by
  intro w
  have nested := (inside.inScope inner).inScope outer w
  rw [← nested]
  exact Except.bind_assoc.symm

/-- One emitter for each value of a list. -/
theorem foldlM {α : Type} {emit : SourceWriter → α → Except Failure SourceWriter}
    {codes : α → List Code} (each : ∀ value, Writes (emit · value) (codes value))
    (values : List α) : Writes (values.foldlM emit) (values.flatMap codes) := by
  induction values with
  | nil => exact fun w => rfl
  | cons value rest ih => exact (each value).bind ih

end Writes

end Code

open Code (Writes writeAll)

/-! ## Declarations -/

/-- The line and the derives that stand before a declaration. -/
theorem SourceWriter.derives_eq (heading : String) (names : List String) (w : SourceWriter) :
    (w.line heading).derives names = writeAll w (.line heading :: Code.derives names) := by
  unfold derives Code.derives
  split <;> rfl

/-- An enumeration is a scope with a line for each member. -/
theorem SourceWriter.emitEnumeration_writes (visibility name : String) (members : List String) :
    Writes (fun w => w.emitEnumeration visibility name members)
      [.scope (joinWords [visibility, "enum", name])
        (members.map fun member => .line (member ++ ","))] :=
  .scope (Code.foldl_line _ members) _

/-- The enumeration with what stands before it. -/
def Discriminant.code (discriminant : Discriminant) : List Code :=
  .line ("/// Discriminant of [`" ++ discriminant.merged ++ "`].") ::
    Code.derives discriminant.derives ++
    [.scope (SourceWriter.joinWords [discriminant.visibility, "enum", discriminant.name])
      (discriminant.members.map fun member => .line (member ++ ","))]

/-- The discriminant is an enumeration behind its attributes. -/
theorem Discriminant.emit_writes (discriminant : Discriminant) :
    Writes discriminant.emit discriminant.code := by
  have headed := SourceWriter.derives_eq ("/// Discriminant of [`" ++ discriminant.merged ++ "`].")
    discriminant.derives
  have whole := Writes.after headed (SourceWriter.emitEnumeration_writes discriminant.visibility
    discriminant.name discriminant.members)
  exact whole

/-- The struct with what stands before it. -/
def MergedStruct.code (merged : MergedStruct) : List Code :=
  .line ("/// Flattened value of every `" ++ merged.interface ++ "` implementor.") ::
    Code.derives merged.derives ++
    [.scope (SourceWriter.visibilityPrefix merged.visibility ++ "struct " ++ merged.name)
      (merged.fields.map fun (name, type) => .line (SourceWriter.fieldText "pub" name type))]

/-- The merged struct is a scope with a line for each field. -/
theorem MergedStruct.emit_writes (merged : MergedStruct) : Writes merged.emit merged.code := by
  have headed := SourceWriter.derives_eq
    ("/// Flattened value of every `" ++ merged.interface ++ "` implementor.") merged.derives
  have fields := Code.foldl_line (fun field : String × String =>
    SourceWriter.fieldText "pub" field.1 field.2) merged.fields
  have whole := Writes.after headed (.scope fields merged.headText)
  exact whole

/-- The declarations of the discriminant and of the struct. -/
def MergedType.declarationCode (merged : MergedType) (config : Config) : List Code :=
  (merged.discriminant config).code ++ .blank :: (merged.mergedStruct config).code

/-- The discriminant and the struct are written one after the other. -/
theorem MergedType.emitDeclaration_writes (merged : MergedType) (config : Config) :
    Writes (merged.emitDeclaration config) (merged.declarationCode config) :=
  (merged.discriminant config).emit_writes.bind_blank (merged.mergedStruct config).emit_writes

/-! ## Dispatch -/

/-- The arm with one line for each step. -/
def Arm.code (arm : Arm) (typeIdName : String) : Code :=
  .scope (headText typeIdName arm.variant) (arm.steps.map fun step => .line step.text)

/-- An arm is a scope with a line for each step. -/
theorem Arm.emit_writes (arm : Arm) (typeIdName : String) :
    Writes (arm.emit typeIdName) [arm.code typeIdName] :=
  .scope (Code.foldl_line ArmStep.text arm.steps) _

/-- The arm for no variant, in one line if there is nothing to do. -/
def Fallback.code (fallback : Fallback) : Code :=
  if fallback.resets.isEmpty && !fallback.yieldsDefault then
    .line (Dispatch.noVariant ++ " => \x7b\x7d")
  else
    .scope (Dispatch.noVariant ++ " =>")
      ((fallback.resets.map fun name => .line (resetText name)) ++
        if fallback.yieldsDefault then [.line Dispatch.defaultValue] else [])

/-- The fallback is one line, or a scope with a line for each reset. -/
theorem Fallback.emit_writes (fallback : Fallback) : Writes fallback.emit [fallback.code] := by
  intro w
  unfold emit code
  split
  next => rfl
  next =>
    have filled (w : SourceWriter) :
        (let reset := fallback.resets.foldl (fun w name => w.line (resetText name)) w
          if fallback.yieldsDefault then reset.line Dispatch.defaultValue else reset) =
          writeAll w ((fallback.resets.map fun name => .line (resetText name)) ++
            if fallback.yieldsDefault then [.line Dispatch.defaultValue] else []) := by
      rw [Code.writeAll_append, ← Code.foldl_line]
      split <;> rfl
    exact Writes.scope filled _ w

/-- The method, which branches on the field with the discriminant. -/
def DispatchMethod.code (method : DispatchMethod) (typeIdField typeIdName : String) : Code :=
  .scope method.head
    [.scope ("match self." ++ typeIdField)
      ((method.arms.map fun arm => arm.code typeIdName) ++ [method.fallback.code])]

/-- A method is a scope around the scope of its branches. -/
theorem DispatchMethod.emit_writes (method : DispatchMethod) (typeIdField typeIdName : String) :
    Writes (method.emit typeIdField typeIdName) [method.code typeIdField typeIdName] := by
  have arms : Writes (method.arms.foldlM fun w arm => arm.emit typeIdName w)
      (method.arms.map fun arm => arm.code typeIdName) := by
    rw [← List.flatMap_pure_eq_map]
    exact .foldlM (fun arm => arm.emit_writes typeIdName) _
  exact (arms.bind method.fallback.emit_writes).inScopes method.head ("match self." ++ typeIdField)

/-- The implementation after an empty line. -/
def DispatchImpl.code (impl : DispatchImpl) (typeIdField typeIdName : String) : List Code :=
  [.blank, Code.attr "allow(unused_variables, clippy::let_unit_value)",
    .scope ("impl " ++ impl.interface ++ " for " ++ impl.merged)
      (Code.spaced (impl.methods.map fun method => method.code typeIdField typeIdName))]

/-- The methods after the first one, each with an empty line before it. -/
theorem DispatchImpl.emitMethod_later (typeIdField typeIdName : String)
    (methods : List DispatchMethod) (w : SourceWriter) :
    methods.foldlM (emitMethod typeIdField typeIdName) (false, w) =
      .ok (false, writeAll w (methods.flatMap fun method =>
        [.blank, method.code typeIdField typeIdName])) := by
  induction methods generalizing w with
  | nil => rfl
  | cons method rest ih =>
      have here : emitMethod typeIdField typeIdName (false, w) method =
          .ok (false, writeAll w [.blank, method.code typeIdField typeIdName]) := by
        change (method.emit typeIdField typeIdName w.blank).bind _ = _
        rw [method.emit_writes typeIdField typeIdName]
        rfl
      rw [List.foldlM_cons, here, List.flatMap_cons, Code.writeAll_append]
      exact ih _

/-- The methods have an empty line between each two of them. -/
theorem DispatchImpl.emitMethods (typeIdField typeIdName : String)
    (methods : List DispatchMethod) (w : SourceWriter) :
    (methods.foldlM (emitMethod typeIdField typeIdName) (true, w)).map Prod.snd =
      .ok (writeAll w (Code.spaced (methods.map fun method =>
        method.code typeIdField typeIdName))) := by
  cases methods with
  | nil => rfl
  | cons method rest =>
      have here : emitMethod typeIdField typeIdName (true, w) method =
          .ok (false, writeAll w [method.code typeIdField typeIdName]) := by
        change (method.emit typeIdField typeIdName w).bind _ = _
        rw [method.emit_writes typeIdField typeIdName]
        rfl
      rw [List.foldlM_cons, here, List.map_cons, Code.spaced_cons, List.flatMap_map]
      change Except.map Prod.snd (rest.foldlM (emitMethod typeIdField typeIdName) (false, _)) = _
      rw [emitMethod_later]
      rfl

/-- An implementation is a scope with its methods, behind its attribute. -/
theorem DispatchImpl.emit_writes (impl : DispatchImpl) (typeIdField typeIdName : String) :
    Writes (impl.emit typeIdField typeIdName) (impl.code typeIdField typeIdName) := by
  have inside : Writes (fun w =>
      (impl.methods.foldlM (emitMethod typeIdField typeIdName) (true, w)).map Prod.snd)
      (Code.spaced (impl.methods.map fun method => method.code typeIdField typeIdName)) :=
    emitMethods typeIdField typeIdName impl.methods
  have headed (w : SourceWriter) : w.blank.attr "allow(unused_variables, clippy::let_unit_value)" =
      writeAll w [.blank, Code.attr "allow(unused_variables, clippy::let_unit_value)"] := rfl
  intro w
  refine Eq.trans ?_ (Writes.after headed
    (inside.inScope ("impl " ++ impl.interface ++ " for " ++ impl.merged)) w)
  change Except.bind _ _ = Except.bind (Except.map _ _) _
  cases impl.methods.foldlM (emitMethod typeIdField typeIdName) (true, _) <;> rfl

/-- The implementations of all traits of the hierarchy. -/
def MergedType.dispatchCode (merged : MergedType) (config : Config) : List Code :=
  merged.dispatchImpls.flatMap fun impl => impl.code config.typeIdField merged.typeIdName

/-- The implementations for all traits are written one after the other. -/
theorem MergedType.emitDispatch_writes (merged : MergedType) (config : Config) :
    Writes (merged.emitDispatch config) (merged.dispatchCode config) :=
  .foldlM (fun impl => impl.emit_writes config.typeIdField merged.typeIdName) merged.dispatchImpls

/-! ## Conversions -/

namespace Conversion

/-- The routine that reads the variant from a merged value. -/
def fromMergedCode (conversion : Conversion) : Code :=
  .scope conversion.fromMergedHead
    [.scope "Self" (conversion.reads.map fun (field, slot) => .line (readText field slot))]

/-- The routine that reads a variant is a scope around a literal. -/
theorem emitFromMerged_writes (conversion : Conversion) :
    Writes conversion.emitFromMerged [conversion.fromMergedCode] := by
  have reads := Code.foldl_line (fun read : String × String => readText read.1 read.2)
    conversion.reads
  exact (Writes.scope reads "Self").inScope conversion.fromMergedHead

/-- The routine that makes a merged value of the variant. -/
def toMergedCode (conversion : Conversion) : Code :=
  .scope conversion.toMergedHead
    [.scope conversion.merged
      ((conversion.creates.map fun assignment => .line (conversion.createText assignment)) ++
        [.line (".." ++ Dispatch.defaultValue)])]

/-- The routine that makes a merged value is a scope around a literal. -/
theorem emitToMerged_writes (conversion : Conversion) :
    Writes conversion.emitToMerged [conversion.toMergedCode] := by
  have given (w : SourceWriter) : (conversion.creates.foldl (fun w assignment =>
      w.line (conversion.createText assignment)) w).line (".." ++ Dispatch.defaultValue) =
        writeAll w ((conversion.creates.map fun assignment =>
          .line (conversion.createText assignment)) ++ [.line (".." ++ Dispatch.defaultValue)]) := by
    rw [Code.foldl_line, Code.writeAll_append]
    rfl
  exact (Writes.scope given conversion.merged).inScope conversion.toMergedHead

/-- The routine that writes the variant over a merged value. -/
def writeIntoCode (conversion : Conversion) : Code :=
  .scope conversion.writeIntoHead
    (conversion.writes.map fun assignment => .line (conversion.writeText assignment))

/-- The routine that writes a variant is a scope with its assignments. -/
theorem emitWriteInto_writes (conversion : Conversion) :
    Writes conversion.emitWriteInto [conversion.writeIntoCode] :=
  .scope (Code.foldl_line conversion.writeText conversion.writes) conversion.writeIntoHead

/-- An implementation with one function of one line is two scopes. -/
theorem emitSmallImpl_writes (head function line : String) :
    Writes (emitSmallImpl head function line) [.scope head [.scope function [.line line]]] := by
  have one (w : SourceWriter) : w.line line = writeAll w [.line line] := rfl
  exact (Writes.scope one function).inScope head

/-- The conversions by `From`, which call the routines. -/
def fromImplsCode (conversion : Conversion) : List Code :=
  [.blank,
    .scope ("impl ::core::convert::From<" ++ conversion.variant ++ "> for " ++ conversion.merged)
      [.scope ("fn from(value: " ++ conversion.variant ++ ") -> Self")
        [.line ("value." ++ conversion.names.toMerged ++ "()")]],
    .blank,
    .scope ("impl ::core::convert::From<&" ++ conversion.merged ++ "> for " ++ conversion.variant)
      [.scope ("fn from(merged: &" ++ conversion.merged ++ ") -> Self")
        [.line ("Self::" ++ conversion.names.fromMerged ++ "(merged)")]]]

/-- Each conversion is an implementation with one function. -/
theorem emitFromTraits_writes (conversion : Conversion) :
    Writes conversion.emitFromTraits conversion.fromImplsCode := by
  have gap (w : SourceWriter) : w.blank = writeAll w [.blank] := rfl
  have both := (emitSmallImpl_writes
    ("impl ::core::convert::From<" ++ conversion.variant ++ "> for " ++ conversion.merged)
    ("fn from(value: " ++ conversion.variant ++ ") -> Self")
    ("value." ++ conversion.names.toMerged ++ "()")).bind_blank (emitSmallImpl_writes
    ("impl ::core::convert::From<&" ++ conversion.merged ++ "> for " ++ conversion.variant)
    ("fn from(merged: &" ++ conversion.merged ++ ") -> Self")
    ("Self::" ++ conversion.names.fromMerged ++ "(merged)"))
  have whole := Writes.after gap both
  exact whole

/-- The conversions of the variant. -/
def code (conversion : Conversion) : List Code :=
  [Code.attr "allow(clippy::clone_on_copy, clippy::needless_update)",
    .scope ("impl " ++ conversion.variant)
      [conversion.fromMergedCode, .blank, conversion.toMergedCode, .blank,
        conversion.writeIntoCode]] ++
    if conversion.emitFromImpls then conversion.fromImplsCode else []

/-- **Conversions.** The three routines are written into one scope, and behind it the conversions.
-/
theorem emit_writes (conversion : Conversion) : Writes conversion.emit conversion.code := by
  have headed (w : SourceWriter) :
      w.attr "allow(clippy::clone_on_copy, clippy::needless_update)" =
        writeAll w [Code.attr "allow(clippy::clone_on_copy, clippy::needless_update)"] := rfl
  have routines := conversion.emitFromMerged_writes.bind_blank
    (conversion.emitToMerged_writes.bind_blank conversion.emitWriteInto_writes)
  have impl := Writes.after headed (routines.inScope ("impl " ++ conversion.variant))
  have rest : Writes (fun w => if conversion.emitFromImpls then conversion.emitFromTraits w
      else pure w) (if conversion.emitFromImpls then conversion.fromImplsCode else []) := by
    intro w
    cases conversion.emitFromImpls with
    | true => exact conversion.emitFromTraits_writes w
    | false => rfl
  intro w
  refine Eq.trans ?_ (impl.bind rest w)
  simp only [emit, bind_assoc]

end Conversion

namespace Generation

/-- An emitter that starts with a new writer writes the text of its code. -/
theorem finish_of_writes {emit : SourceWriter → Except Failure SourceWriter} {codes : List Code}
    (writes : Writes emit codes) (indent : Indent) :
    (do (← emit (← SourceWriter.new indent)).finish) = Code.text indent codes := by
  have same : emit = fun w => Code.emitAll w codes :=
    funext fun w => (writes w).trans (Code.emitAll_eq_ok w codes).symm
  rw [same]
  rfl

variable {config : Config} {scan : ScanResult} {merged : MergedType}

/-- The source with the merged type and its dispatch. -/
theorem mergedSource_eq : mergedSource config scan merged = do
    let text ← Code.text config.indent
      (merged.declarationCode config ++ merged.dispatchCode config)
    return ⟨merged.name, .merged, merged.interface, merged.module, text,
      contextFor config scan merged merged.module⟩ := by
  have writes := (merged.emitDeclaration_writes config).bind (merged.emitDispatch_writes config)
  rw [← finish_of_writes writes]
  simp only [mergedSource, bind_assoc]

/-- The source of a merged type is written if its code has a text. -/
theorem mergedSource_eq_ok_iff {source : GeneratedSource} :
    mergedSource config scan merged = .ok source ↔
      ∃ text, Code.text config.indent
          (merged.declarationCode config ++ merged.dispatchCode config) = .ok text ∧
        ⟨merged.name, .merged, merged.interface, merged.module, text,
          contextFor config scan merged merged.module⟩ = source := by
  rw [mergedSource_eq]
  exact Except.bind_eq_ok_iff.trans (by simp only [pure, Except.pure, Except.ok.injEq])

/-- The source with the conversions of a variant. -/
theorem variantSource_eq (variant : Variant) : variantSource config scan merged variant = do
    let text ← Code.text config.indent (merged.conversion config variant).code
    return ⟨Text.snakeCase variant.name ++ "_" ++ Text.snakeCase merged.name, .variant,
      merged.interface, variant.module, text, contextFor config scan merged variant.module⟩ := by
  rw [← finish_of_writes (merged.conversion config variant).emit_writes]
  simp only [variantSource, bind_assoc]

/-- The source of a variant is written if its code has a text. -/
theorem variantSource_eq_ok_iff {variant : Variant} {source : GeneratedSource} :
    variantSource config scan merged variant = .ok source ↔
      ∃ text, Code.text config.indent (merged.conversion config variant).code = .ok text ∧
        ⟨Text.snakeCase variant.name ++ "_" ++ Text.snakeCase merged.name, .variant,
          merged.interface, variant.module, text, contextFor config scan merged variant.module⟩ =
            source := by
  rw [variantSource_eq]
  exact Except.bind_eq_ok_iff.trans (by simp only [pure, Except.pure, Except.ok.injEq])

end Generation

end VariantMerge
