import VariantMerge.Proofs.Generation.Indentation

/-!
# Internal errors do not occur

Some failures say that the generator itself is at fault: a scope is closed that is not open or left
open, a getter has lost its type, a block is cut inside of a character. None of them can come of an
interface (`Failure.IsAbout.not_isFault`), since each emitter closes exactly the scopes that it opens
(`MergedType.keepsScopes`) and the text of a source starts with a character that is not blank. So a pass
whose indentation can be built never reports one, and every module unit of its sources can be written
(`Generation.run_faultless`).
-/

namespace VariantMerge

/-- The failures for which the generator itself is to blame. -/
def Failure.IsFault : Failure → Prop
  | .internal _ | .oversizedIndent | .cutCharacter => True
  | _ => False

namespace Failure.IsAbout

variable {interface unit : String} {indent : Indent} {failure : Failure}

/-- What comes of an interface is no fault of the generator. -/
theorem not_isFault (about : failure.IsAbout interface indent)
    (built : indent.unit? = some unit) : ¬ failure.IsFault := by
  cases about with
  | named named =>
      cases failure with
      | invalidName | unsupportedInterface | unsupportedMember => exact id
      | _ => cases named
  | variant name reason => exact id
  | indent oversized =>
      rw [built] at oversized
      cases oversized

/-- What is said of it starts unlike an internal error. -/
theorem message_ne_internal (about : failure.IsAbout interface indent)
    (built : indent.unit? = some unit) (reason : Reason) :
    (Generation.diagnosticFor interface failure).message ≠ (Failure.internal reason).message := by
  have starts {first : String} {c : Char} (head : first.toList.head? = some c) (rest : String) :
      (first ++ rest).toList.head? = some c := by
    rw [String.toList_append, List.head?_append, head, Option.some_or]
  have internal : (Failure.internal reason).message.toList.head? = some 'I' :=
    starts (by decide) _
  intro same
  rw [← same] at internal
  have told (c : Char) (differs : c ≠ 'I')
      (head : (Generation.diagnosticFor interface failure).message.toList.head? = some c) :
      False :=
    differs (Option.some.inj (head.symm.trans internal))
  cases about with
  | named named =>
      cases failure with
      | invalidName =>
          exact told 'C' (by decide) (starts (starts (starts (by decide) _) _) _)
      | unsupportedInterface =>
          exact told 'U' (by decide) (starts (starts (starts (by decide) _) _) _)
      | unsupportedMember =>
          exact told 'U' (by decide) (starts (starts (starts (starts (starts (by decide) _) _) _) _) _)
      | _ => cases named
  | variant name reason =>
      exact told 'U' (by decide) (starts (starts (starts (by decide) _) _) _)
  | indent oversized =>
      rw [built] at oversized
      cases oversized

end Failure.IsAbout

namespace SourceWriter

/-- The emitter succeeds with any writer, and leaves its open scopes as they are. -/
def KeepsScopes (emit : SourceWriter → Except Failure SourceWriter) : Prop :=
  ∀ w, ∃ after, emit w = .ok after ∧ after.scopes = w.scopes

/-- An emitter whose output is a tree keeps the scopes. -/
theorem KeepsScopes.of_writes {emit : SourceWriter → Except Failure SourceWriter}
    {codes : List Code} (writes : Code.Writes emit codes) : KeepsScopes emit :=
  fun w => ⟨Code.writeAll w codes, writes w, Code.writeAll_scopes w codes⟩

end SourceWriter

/-- All that is emitted for a merged type, as a whole and piece by piece, keeps the scopes of any
writer. -/
structure MergedType.KeepsScopes (merged : MergedType) (config : Config) : Prop where
  /-- The enumeration and the struct. -/
  declaration : SourceWriter.KeepsScopes (merged.emitDeclaration config)
  enumeration : SourceWriter.KeepsScopes (merged.discriminant config).emit
  struct : SourceWriter.KeepsScopes (merged.mergedStruct config).emit
  /-- The implementations of all traits. -/
  dispatch : SourceWriter.KeepsScopes (merged.emitDispatch config)
  implementation : ∀ impl ∈ merged.dispatchImpls,
    SourceWriter.KeepsScopes (impl.emit config.typeIdField merged.typeIdName)
  method : ∀ impl ∈ merged.dispatchImpls, ∀ method ∈ impl.methods,
    SourceWriter.KeepsScopes (method.emit config.typeIdField merged.typeIdName)
  arm : ∀ impl ∈ merged.dispatchImpls, ∀ method ∈ impl.methods, ∀ arm ∈ method.arms,
    SourceWriter.KeepsScopes (arm.emit merged.typeIdName)
  fallback : ∀ impl ∈ merged.dispatchImpls, ∀ method ∈ impl.methods,
    SourceWriter.KeepsScopes method.fallback.emit
  /-- The conversions of any variant, and each of the three routines. -/
  conversion : ∀ variant, SourceWriter.KeepsScopes (merged.conversion config variant).emit
  fromMerged : ∀ variant, SourceWriter.KeepsScopes (merged.conversion config variant).emitFromMerged
  toMerged : ∀ variant, SourceWriter.KeepsScopes (merged.conversion config variant).emitToMerged
  writeInto : ∀ variant, SourceWriter.KeepsScopes (merged.conversion config variant).emitWriteInto

/-- **Every emitter keeps the scopes**, for any merged type and any settings. -/
theorem MergedType.keepsScopes (merged : MergedType) (config : Config) :
    merged.KeepsScopes config where
  declaration := .of_writes (merged.emitDeclaration_writes config)
  enumeration := .of_writes (merged.discriminant config).emit_writes
  struct := .of_writes (merged.mergedStruct config).emit_writes
  dispatch := .of_writes (merged.emitDispatch_writes config)
  implementation := fun impl _ => .of_writes (impl.emit_writes _ _)
  method := fun _ _ method _ => .of_writes (method.emit_writes _ _)
  arm := fun _ _ _ _ arm _ => .of_writes (arm.emit_writes _)
  fallback := fun _ _ method _ => .of_writes method.fallback.emit_writes
  conversion := fun variant => .of_writes (merged.conversion config variant).emit_writes
  fromMerged := fun variant => .of_writes (merged.conversion config variant).emitFromMerged_writes
  toMerged := fun variant => .of_writes (merged.conversion config variant).emitToMerged_writes
  writeInto := fun variant => .of_writes (merged.conversion config variant).emitWriteInto_writes

namespace Generation

/-- Each diagnostic of a pass is that of an interface that failed. -/
theorem exists_failure_of_mem_diagnostics {config : Config} {units : List SourceUnit}
    {diagnostic : Diagnostic} (reported : diagnostic ∈ (run config units).value.diagnostics) :
    let scan := ScanResult.ofUnits config.marker units
    ∃ interface ∈ scan.interfaces, ∃ failure,
      (ofInterface config scan interface).outcome = .error failure ∧
        diagnostic = diagnosticFor interface.name failure := by
  intro scan
  rw [(run_eq_added config units).2] at reported
  obtain ⟨interface, listed, added⟩ := List.mem_flatMap.mp reported
  rw [added_eq] at added
  cases ran : (ofInterface config scan interface).outcome with
  | ok sources => simp [scan, ran] at added
  | error failure =>
      simp only [scan, ran, List.mem_singleton] at added
      exact ⟨interface, listed, failure, ran, added⟩

/-- **Internal errors do not occur.** If the indentation can be built, every diagnostic of a pass is
that of a failure which is no fault of the generator, and none reads like an internal error. All
emitters of a merged type succeed and leave the scopes of a writer as they found them. And every module
unit of sources of the pass can be written, for any host and with any indentation that can be built. -/
theorem run_faultless {config : Config} {unit : String} (built : config.indent.unit? = some unit)
    (units : List SourceUnit) :
    let scan := ScanResult.ofUnits config.marker units
    let output := (run config units).value
    (∀ diagnostic ∈ output.diagnostics, ∃ interface ∈ scan.interfaces, ∃ failure,
      (ofInterface config scan interface).outcome = .error failure ∧
        diagnostic = diagnosticFor interface.name failure ∧ ¬ failure.IsFault) ∧
    (∀ diagnostic ∈ output.diagnostics, ∀ reason,
      diagnostic.message ≠ (Failure.internal reason).message) ∧
    (∀ merged : MergedType, merged.KeepsScopes config) ∧
    ∀ (layout : Config) (host : ModulePath) (chosen : List GeneratedSource),
      layout.indent.unit?.isSome → chosen ⊆ output.sources →
        ∃ text, ModuleUnit.render layout host chosen = .ok text := by
  intro scan output
  refine ⟨fun diagnostic reported => ?_, fun diagnostic reported reason => ?_,
    fun merged => merged.keepsScopes config, fun layout host chosen layoutBuilt listed => ?_⟩
  · obtain ⟨interface, listed, failure, ran, same⟩ := exists_failure_of_mem_diagnostics reported
    have about := ofInterface_failsAbout failure ran
    exact ⟨interface, listed, failure, ran, same, about.not_isFault built⟩
  · obtain ⟨interface, -, failure, ran, rfl⟩ := exists_failure_of_mem_diagnostics reported
    exact (ofInterface_failsAbout failure ran).message_ne_internal built reason
  · obtain ⟨level, built⟩ := Option.isSome_iff_exists.mp layoutBuilt
    exact ⟨_, ModuleUnit.render_eq built host fun _ member =>
      startsVisibly_of_mem_sources (listed member)⟩

/-- A pass that reports the one interface that fails, and a unit of all sources of the other one,
twice, with tabs. -/
theorem run_faultless_spare :
    let output := (run Config.default [shapeUnit (markedTrait spareTrait)]).value
    Config.default.indent.unit? = some "    " ∧ output.diagnostics.length = 1 ∧
    output.sources ≠ [] ∧
    (∀ diagnostic ∈ output.diagnostics, ∀ reason,
      diagnostic.message ≠ (Failure.internal reason).message) ∧
    (Config.default.withIndent .tabs).indent.unit?.isSome ∧
    output.sources ++ output.sources ⊆ output.sources ∧
    ∃ text, ModuleUnit.render (Config.default.withIndent .tabs) ⟨["far"]⟩
      (output.sources ++ output.sources) = .ok text := by
  intro output
  have built : Config.default.indent.unit? = some "    " := by decide
  have twice : output.sources ++ output.sources ⊆ output.sources := by simp
  obtain ⟨-, messages, -, units⟩ := run_faultless built [shapeUnit (markedTrait spareTrait)]
  exact ⟨built, by decide +kernel, by decide +kernel, messages, rfl, twice,
    units (Config.default.withIndent .tabs) ⟨["far"]⟩ _ rfl twice⟩

end Generation

end VariantMerge
