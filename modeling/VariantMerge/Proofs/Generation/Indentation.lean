import VariantMerge.Proofs.Emit.Indentation
import VariantMerge.Proofs.Generation.Modes

/-!
# Passes that differ in their indentation

The indentation of a pass comes into play when code is written, and at no other place. So with two
indentations that can be built, an interface fails for the same reason or generates sources that are
the same but for the blanks at the beginnings of their lines (`Generation.ofInterface_indented`), and
so do the module units that are made of them (`Generation.run_indented`).
-/

namespace VariantMerge

def Config.withIndent (config : Config) (indent : Indent) : Config :=
  { config with indent }

namespace Generation

variable {config : Config} {scan : ScanResult}

/-! ## Sources start visibly -/

/-- Code does not begin with a blank. -/
theorem startsVisibly_of_codes {merged : MergedType} {code : List Code}
    (listed : code ∈ codes config merged) {text : String}
    (written : Code.text config.indent code = .ok text) : StartsVisibly text := by
  obtain rfl | conversion := List.mem_cons.mp listed
  · have visible : StartsVisibly ("/// Discriminant of [`" ++ merged.name ++ "`].") :=
      ⟨'/', by simp, by decide⟩
    exact Code.text_starts written visible
  · obtain ⟨variant, -, rfl⟩ := List.mem_map.mp conversion
    have visible : StartsVisibly "#[allow(clippy::clone_on_copy, clippy::needless_update)]" :=
      ⟨'#', by simp, by decide⟩
    exact Code.text_starts written visible

/-- No source of a pass begins with a blank. -/
theorem startsVisibly_of_mem_sources {units : List SourceUnit} {source : GeneratedSource}
    (listed : source ∈ (run config units).value.sources) : StartsVisibly source.text := by
  obtain ⟨interface, -, merged, sources, generated, added⟩ := exists_generates_of_mem_sources listed
  have text : (.ok source.text : Except Failure String) ∈
      (sources.map GeneratedSource.text).map Except.ok :=
    List.mem_map_of_mem (List.mem_map_of_mem added)
  rw [← (sourcesOf_contents generated.sources).2] at text
  obtain ⟨code, emitted, written⟩ := List.mem_map.mp text
  exact startsVisibly_of_codes emitted written

/-! ## One interface -/

/-- How what comes of an interface compares for two indentations. -/
inductive SameOutcome :
    Except Failure (List GeneratedSource) → Except Failure (List GeneratedSource) → Prop
  | failed (failure : Failure) : SameOutcome (.error failure) (.error failure)
  | succeeded {sources others : List GeneratedSource}
      (same : List.Forall₂ GeneratedSource.SameButIndent sources others) :
      SameOutcome (.ok sources) (.ok others)

/-- What does not depend on the indentation may be computed first. -/
theorem SameOutcome.bind (result : Except Failure α)
    {next otherNext : α → Except Failure (List GeneratedSource)}
    (each : ∀ value, SameOutcome (next value) (otherNext value)) :
    SameOutcome (result.bind next) (result.bind otherNext) := by
  cases result with
  | error failure => exact .failed failure
  | ok value => exact each value

section

variable {first second : Indent} {unit otherUnit : String} (built : first.unit? = some unit)
  (otherBuilt : second.unit? = some otherUnit)

include built otherBuilt

/-- A source whose text alone depends on the indentation. -/
theorem source_indented (codes : List Code) (source : String → GeneratedSource)
    (kept : ∀ text other : String, Text.SameButIndent text.toList other.toList →
      (source text).SameButIndent (source other)) :
    ∃ written other, ((Code.text first codes).bind fun text => .ok (source text)) = .ok written ∧
      ((Code.text second codes).bind fun text => .ok (source text)) = .ok other ∧
      written.SameButIndent other := by
  obtain ⟨text, other, written, otherWritten, same⟩ :=
    Code.exists_text_sameButIndent built otherBuilt codes
  refine ⟨source text, source other, ?_, ?_, kept text other same⟩
  · rw [written]
    rfl
  · rw [otherWritten]
    rfl

/-- The source of a merged type is written with both indentations, and is the same but for them. -/
theorem mergedSource_indented (config : Config) (scan : ScanResult) (merged : MergedType) :
    ∃ source other, mergedSource (config.withIndent first) scan merged = .ok source ∧
      mergedSource (config.withIndent second) scan merged = .ok other ∧
      source.SameButIndent other := by
  simp only [mergedSource_eq]
  exact source_indented built otherBuilt
    (merged.declarationCode config ++ merged.dispatchCode config)
    (⟨merged.name, .merged, merged.interface, merged.module, ·,
      contextFor config scan merged merged.module⟩)
    fun _ _ same => ⟨rfl, rfl, rfl, rfl, rfl, same⟩

/-- So is the source of a variant. -/
theorem variantSource_indented (config : Config) (scan : ScanResult) (merged : MergedType) (variant : Variant) :
    ∃ source other, variantSource (config.withIndent first) scan merged variant = .ok source ∧
      variantSource (config.withIndent second) scan merged variant = .ok other ∧
      source.SameButIndent other := by
  simp only [variantSource_eq]
  exact source_indented built otherBuilt (merged.conversion config variant).code
    (⟨Text.snakeCase variant.name ++ "_" ++ Text.snakeCase merged.name, .variant, merged.interface,
      variant.module, ·, contextFor config scan merged variant.module⟩)
    fun _ _ same => ⟨rfl, rfl, rfl, rfl, rfl, same⟩

/-- So are all sources of a merged type. -/
theorem sourcesOf_indented (config : Config) (scan : ScanResult) (merged : MergedType) :
    SameOutcome (sourcesOf (config.withIndent first) scan merged)
      (sourcesOf (config.withIndent second) scan merged) := by
  obtain ⟨source, other, written, otherWritten, same⟩ :=
    mergedSource_indented built otherBuilt config scan merged
  choose each otherEach made otherMade alike using
    variantSource_indented built otherBuilt config scan merged
  have forEach {made : Variant → GeneratedSource} {read : Variant → Except Failure GeneratedSource}
      (all : ∀ variant, read variant = .ok (made variant)) :
      List.Forall₂ (fun variant source => read variant = .ok source) merged.variants
        (merged.variants.map made) :=
    List.forall₂_map_right_iff.mpr (List.forall₂_same.mpr fun variant _ => all variant)
  rw [sourcesOf_eq_ok_iff.mpr ⟨source, _, written, forEach made, rfl⟩,
    sourcesOf_eq_ok_iff.mpr ⟨other, _, otherWritten, forEach otherMade, rfl⟩]
  refine .succeeded (.cons same ?_)
  rw [List.forall₂_map_left_iff, List.forall₂_map_right_iff]
  exact List.forall₂_same.mpr fun variant _ => alike variant

/-- **An interface with two indentations.** It fails for one reason, or generates sources that are
the same but for indentation. -/
theorem ofInterface_indented (config : Config) (scan : ScanResult) (interface : Interface) :
    SameOutcome (ofInterface (config.withIndent first) scan interface).outcome
      (ofInterface (config.withIndent second) scan interface).outcome := by
  rw [ofInterface_outcome, ofInterface_outcome]
  refine .bind _ fun name => .bind _ fun variants => ?_
  split
  · exact .succeeded .nil
  · exact .bind _ fun members => .bind _ fun layout => .bind _ fun _ =>
      sourcesOf_indented built otherBuilt config scan
        (assemble config interface name variants members layout)

/-- What an interface adds is the same but for the indentation. -/
theorem added_indented (config : Config) (scan : ScanResult) (interface : Interface) :
    List.Forall₂ GeneratedSource.SameButIndent
        (added (config.withIndent first) scan interface).1
        (added (config.withIndent second) scan interface).1 ∧
      (added (config.withIndent first) scan interface).2 =
        (added (config.withIndent second) scan interface).2 := by
  rw [added_eq, added_eq]
  have compared := ofInterface_indented built otherBuilt config scan interface
  generalize (ofInterface (config.withIndent first) scan interface).outcome = here at compared
  generalize (ofInterface (config.withIndent second) scan interface).outcome = there at compared
  cases compared with
  | failed failure => exact ⟨.nil, rfl⟩
  | succeeded same => exact ⟨same, rfl⟩

end

/-! ## A pass -/

/-- With each of the indentations a module has a unit of the sources given for it, and the two units
are the same but for indentation. -/
def UnitsAgree (config : Config) (first second : Indent) (host : ModulePath)
    (sources others : List GeneratedSource) : Prop :=
  ∃ text other, ModuleUnit.render (config.withIndent first) host sources = .ok text ∧
    ModuleUnit.render (config.withIndent second) host others = .ok other ∧
    Text.SameButIndent text.toList other.toList

section

variable {first second : Indent} {unit otherUnit : String} (built : first.unit? = some unit)
  (otherBuilt : second.unit? = some otherUnit)

include built otherBuilt

/-- So are all sources of a pass. -/
theorem sources_indented (config : Config) (units : List SourceUnit) :
    List.Forall₂ GeneratedSource.SameButIndent (run (config.withIndent first) units).value.sources
      (run (config.withIndent second) units).value.sources := by
  rw [(run_eq_added (config.withIndent first) units).1,
    (run_eq_added (config.withIndent second) units).1]
  refine List.rel_flatMap (List.forall₂_same.mpr fun _ _ => rfl : List.Forall₂ Eq _ _) ?_
  rintro interface _ rfl
  exact (added_indented built otherBuilt config _ interface).1

/-- Diagnostics do not depend on the indentation. -/
theorem diagnostics_indented (config : Config) (units : List SourceUnit) :
    (run (config.withIndent first) units).value.diagnostics =
      (run (config.withIndent second) units).value.diagnostics := by
  rw [(run_eq_added (config.withIndent first) units).2,
    (run_eq_added (config.withIndent second) units).2]
  exact congrArg (List.flatMap · _)
    (funext fun interface => (added_indented built otherBuilt config _ interface).2)

/-- The units that are rendered are the same but for the indentation. -/
theorem unitsAgree (config : Config) (units : List SourceUnit) (host : ModulePath)
    {sources others : List GeneratedSource}
    (same : List.Forall₂ GeneratedSource.SameButIndent sources others)
    (listed : sources ⊆ (run (config.withIndent first) units).value.sources)
    (otherListed : others ⊆ (run (config.withIndent second) units).value.sources) :
    UnitsAgree config first second host sources others :=
  ⟨_, _,
    ModuleUnit.render_eq built host fun _ member => startsVisibly_of_mem_sources (listed member),
    ModuleUnit.render_eq otherBuilt host fun _ member =>
      startsVisibly_of_mem_sources (otherListed member),
    (ModuleUnit.written_sameButIndent built otherBuilt host same).text⟩

end

/-- **Indentation is layout only.** With any two indentations that can be built, a pass over the same
units yields the same diagnostics, the same modules and the same sources, apart from the blanks at the
beginnings of the lines of their texts. The same holds of the unit of each module, and of a unit
of any choice of sources for any module. -/
theorem run_indented (config : Config) (units : List SourceUnit) {first second : Indent}
    {unit otherUnit : String} (built : first.unit? = some unit)
    (otherBuilt : second.unit? = some otherUnit) :
    let output := (run (config.withIndent first) units).value
    let other := (run (config.withIndent second) units).value
    List.Forall₂ GeneratedSource.SameButIndent output.sources other.sources ∧
    output.diagnostics = other.diagnostics ∧ output.modules = other.modules ∧
    (∀ host, UnitsAgree config first second host (output.sourcesIn host) (other.sourcesIn host)) ∧
    ∀ host (chosen : List (GeneratedSource × GeneratedSource)),
      chosen ⊆ output.sources.zip other.sources →
      UnitsAgree config first second host (chosen.map Prod.fst) (chosen.map Prod.snd) := by
  intro output other
  have sources : List.Forall₂ GeneratedSource.SameButIndent output.sources other.sources :=
    sources_indented built otherBuilt config units
  have modules : output.modules = other.modules :=
    (run_modules (config.withIndent first) units).trans
      (run_modules (config.withIndent second) units).symm
  refine ⟨sources, diagnostics_indented built otherBuilt config units, modules, ?_, ?_⟩
  · intro host
    have hosted : List.Forall₂ GeneratedSource.SameButIndent (output.sourcesIn host)
        (other.sourcesIn host) := by
      refine List.rel_filter ?_ sources
      intro source other same
      dsimp only
      rw [same.module]
    exact unitsAgree built otherBuilt config units host hosted (List.filter_subset_self _)
      (List.filter_subset_self _)
  · intro host chosen within
    have paired : List.Forall₂ GeneratedSource.SameButIndent (chosen.map Prod.fst)
        (chosen.map Prod.snd) := by
      rw [List.forall₂_map_left_iff, List.forall₂_map_right_iff]
      exact List.forall₂_same.mpr fun pair member => List.forall₂_zip sources (within member)
    refine unitsAgree built otherBuilt config units host paired (fun source member => ?_)
      fun source member => ?_
    · obtain ⟨⟨source, other⟩, picked, rfl⟩ := List.mem_map.mp member
      exact (List.of_mem_zip (within picked)).1
    · obtain ⟨⟨source, other⟩, picked, rfl⟩ := List.mem_map.mp member
      exact (List.of_mem_zip (within picked)).2

/-- Shapes with two blanks for a level, and with a tab, in one unit for another module. -/
theorem run_indented_tabs :
    let units := [shapeUnit spareTrait]
    let output := (run (Config.default.withIndent (.spaces 2)) units).value
    let other := (run (Config.default.withIndent .tabs) units).value
    let all := output.sources.zip other.sources
    (Indent.spaces 2).unit? = some "  " ∧ Indent.tabs.unit? = some "\t" ∧
    output.sources.map GeneratedSource.text ≠ other.sources.map GeneratedSource.text ∧
    List.Forall₂ GeneratedSource.SameButIndent output.sources other.sources ∧
    all ⊆ output.sources.zip other.sources ∧
    UnitsAgree .default (.spaces 2) .tabs ⟨["far"]⟩ (all.map Prod.fst) (all.map Prod.snd) := by
  intro units output other all
  have blanks : (Indent.spaces 2).unit? = some "  " := by decide
  have tab : Indent.tabs.unit? = some "\t" := rfl
  have within : all ⊆ output.sources.zip other.sources := List.Subset.refl _
  obtain ⟨sources, -, -, -, unit⟩ := run_indented .default units blanks tab
  exact ⟨blanks, tab, by decide +kernel, sources, within, unit ⟨["far"]⟩ all within⟩

end Generation

end VariantMerge
