import VariantMerge.Proofs.Generation.UseContext
import VariantMerge.Proofs.Import.Meaning

/-!
# Imports that clash

A source imports by name what other modules import. Each of these modules may be consistent, and two
of them may still bind one name to different paths. Nothing keeps such imports apart: they are
compared as lines, so both are written (`Generation.uses_clash_debug`). If every single module is
consistent, this is the only way in which the imports of a source clash
(`Generation.Generates.uses_clash_iff`).
-/

namespace VariantMerge

namespace Import

/-- The name that an import binds, and the path that it binds it to. An import of everything binds
no name, and neither does one under the name `_`. -/
def binding? (anchored : Import) : Option (String × Bool × List String) :=
  match anchored.imported with
  | .name name => some (name, anchored.leading, anchored.fullPath)
  | .renamed _ newName =>
    if newName = "_" then none else some (newName, anchored.leading, anchored.fullPath)
  | .glob => none

/-- Two imports that bind one name to different paths, whatever is compiled. -/
def Clashes (first second : Import) : Prop :=
  first.conditions = "" ∧ second.conditions = "" ∧
    ∃ bound ∈ first.binding?, ∃ other ∈ second.binding?, bound.1 = other.1 ∧ bound.2 ≠ other.2

instance (first second : Import) : Decidable (first.Clashes second) :=
  inferInstanceAs (Decidable (_ ∧ _ ∧ _))

/-- No two of the imports clash. -/
def Consistent (imports : List Import) : Prop :=
  ∀ first ∈ imports, ∀ second ∈ imports, ¬ first.Clashes second

instance (imports : List Import) : Decidable (Consistent imports) :=
  inferInstanceAs (Decidable (∀ first ∈ imports, _))

theorem Consistent.subset {imports fewer : List Import} (consistent : Consistent imports)
    (subset : fewer ⊆ imports) : Consistent fewer :=
  fun first listed second alsoListed => consistent first (subset listed) second (subset alsoListed)

/-- Imports of several consistent modules clash only across two of them. -/
theorem not_consistent_flatMap_iff {modules : List α} {imports : α → List Import}
    (consistent : ∀ module ∈ modules, Consistent (imports module)) :
    ¬ Consistent (modules.flatMap imports) ↔
      ∃ module ∈ modules, ∃ other ∈ modules, module ≠ other ∧
        ∃ first ∈ imports module, ∃ second ∈ imports other, first.Clashes second := by
  unfold Consistent
  push Not
  simp only [List.mem_flatMap]
  constructor
  · rintro ⟨first, ⟨module, involved, listed⟩, second, ⟨other, alsoInvolved, alsoListed⟩, clash⟩
    refine ⟨module, involved, other, alsoInvolved, ?_, first, listed, second, alsoListed, clash⟩
    rintro rfl
    exact consistent module involved first listed second alsoListed clash
  · rintro ⟨module, involved, other, alsoInvolved, -, first, listed, second, alsoListed, clash⟩
    exact ⟨first, ⟨module, involved, listed⟩, second, ⟨other, alsoInvolved, alsoListed⟩, clash⟩

end Import

open Import (Consistent)

theorem ScanResult.consistent_importsIn {scan : ScanResult}
    (consistent : ∀ listed ∈ scan.modules, Consistent (listed.2.imports listed.1))
    (module : ModulePath) : Consistent (scan.importsIn module) := by
  unfold importsIn module?
  cases found : scan.modules.lookup module with
  | none => exact fun first listed => absurd listed List.not_mem_nil
  | some info =>
      obtain ⟨before, after, modules, -⟩ := List.lookup_eq_some_iff.mp found
      exact consistent (module, info) (modules ▸ List.mem_append_right _ List.mem_cons_self)

namespace Generation

variable {config : Config} {scan : ScanResult} {interface : Interface} {merged : MergedType}
  {sources : List GeneratedSource} {source : GeneratedSource}

/-- The imports of a module that a source has to name. -/
def importsFor (scan : ScanResult) (interface : Interface) (merged : MergedType)
    (source : GeneratedSource) (module : ModulePath) : List Import :=
  (scan.importsIn module).filter
    (HasToBeNamed (involvedModules scan interface merged) source.module)

/-- **Where propagated imports clash.** The lines of a source are those of the imports that it has
to name. If every module is consistent, two of these imports bind one name to different paths
exactly if they come from two modules other than the host that do so; they never do if the source
imports from one module only. -/
theorem Generates.uses_clash_iff (wraps : config.mode = .moduleUnits)
    (generated : Generates config scan interface merged sources) (listed : source ∈ sources)
    (consistent : ∀ found ∈ scan.modules, Consistent (found.2.imports found.1)) :
    let globs := source.context.globs
    let imports := importsFor scan interface merged source
    (∀ line, line ∈ source.context.uses ↔
      ∃ anchored ∈ globs.flatMap imports, anchored.line = line) ∧
    (¬ Consistent (globs.flatMap imports) ↔
      ∃ module ∈ globs, ∃ other ∈ globs, module ≠ other ∧
        ∃ first ∈ imports module, ∃ second ∈ imports other, first.Clashes second) ∧
    (globs.length ≤ 1 → Consistent (globs.flatMap imports)) := by
  intro globs imports
  have each (module : ModulePath) : Consistent (imports module) :=
    (scan.consistent_importsIn consistent module).subset fun _ needed =>
      (List.mem_filter.mp needed).1
  have across := Import.not_consistent_flatMap_iff fun module (_ : module ∈ globs) => each module
  refine ⟨fun line => ?_, across, fun single => ?_⟩
  · obtain ⟨-, uses⟩ := Generates.context_eq wraps generated listed
    rw [uses, List.mem_eraseDups]
    simp only [List.mem_flatMap, List.mem_map]
    constructor
    · rintro ⟨module, imported, anchored, needed, written⟩
      exact ⟨anchored, ⟨module, imported, needed⟩, written⟩
    · rintro ⟨anchored, ⟨module, imported, needed⟩, written⟩
      exact ⟨module, imported, anchored, needed, written⟩
  · by_contra clash
    obtain ⟨module, involved, other, alsoInvolved, different, -⟩ := across.mp clash
    match globs, single, involved, alsoInvolved with
    | [_], _, involved, alsoInvolved =>
      have here := List.mem_singleton.mp involved
      have there := List.mem_singleton.mp alsoInvolved
      exact different (here.trans there.symm)

/-- The shapes at the root and in the other module import from one module each. -/
theorem uses_clash_iff_farShapes :
    (Config.default.withMode .moduleUnits).mode = .moduleUnits ∧
      (∀ found ∈ farShapes.modules, Consistent (found.2.imports found.1)) ∧
      ∃ sources, Generates (Config.default.withMode .moduleUnits) farShapes markedShape farMerged
          sources ∧
        ∀ source ∈ sources, Consistent
          (source.context.globs.flatMap (importsFor farShapes markedShape farMerged source)) := by
  have wraps : (Config.default.withMode .moduleUnits).mode = .moduleUnits := rfl
  have consistent : ∀ found ∈ farShapes.modules, Consistent (found.2.imports found.1) := by
    decide +kernel
  obtain ⟨sources, generated⟩ := generates_farShapes
  refine ⟨wraps, consistent, sources, generated, fun source listed => ?_⟩
  obtain ⟨-, -, single⟩ := Generates.uses_clash_iff wraps generated listed consistent
  refine single ?_
  obtain ⟨globs, -⟩ := Generates.context_eq wraps generated listed
  have hosts : sources.map GeneratedSource.module = [.root, .root, ⟨["far"]⟩] :=
    sourcesOf_modules generated.sources
  have host : source.module ∈ [.root, .root, ⟨["far"]⟩] := hosts ▸ List.mem_map_of_mem listed
  rw [globs]
  revert host
  generalize source.module = host
  revert host
  decide +kernel

/-- Two shapes in modules of their own, which import a trait of one name from different places. -/
def spreadShapes : ScanResult :=
  ScanResult.ofUnits Config.default.marker
    [⟨"lib", .root,
        [.module ⟨[], .everywhere, false, "near"⟩ none,
          .module ⟨[], .everywhere, false, "far"⟩ none, .trait (markedTrait shapeTrait)]⟩,
      ⟨"near", ⟨["near"]⟩,
        [useOf (.path "std" (.path "fmt" (.name "Debug"))), useOf (.path "super" (.name "IShape")),
          unitStruct "Origin", blockFor none "Origin", blockFor isShape "Origin"]⟩,
      ⟨"far", ⟨["far"]⟩,
        [useOf (.path "core" (.path "fmt" (.name "Debug"))), useOf (.path "super" (.name "IShape")),
          unitStruct "Square", blockFor none "Square", blockFor isShape "Square"]⟩]

def spreadMerged : MergedType :=
  { shapeMerged with
    variants := [⟨"Origin", ⟨["near"]⟩, .unit, []⟩, ⟨"Square", ⟨["far"]⟩, .unit, []⟩]
    layout := ⟨[], [("Origin", []), ("Square", [])]⟩ }

theorem generates_spreadShapes :
    ∃ sources, Generates (Config.default.withMode .moduleUnits) spreadShapes markedShape
      spreadMerged sources := by
  have built : (Config.default.withMode .moduleUnits).indent.unit? = some "    " := rfl
  obtain ⟨sources, written⟩ := exists_sourcesOf built spreadShapes spreadMerged
  exact ⟨sources, rfl, rfl, List.cons_ne_nil _ _, rfl, rfl, rfl, rfl, rfl, rfl, rfl, written⟩

/-- Each module is consistent, and the merged type's source binds a name to two paths. -/
theorem uses_clash_debug :
    (∀ found ∈ spreadShapes.modules, Consistent (found.2.imports found.1)) ∧
      ∃ sources source, Generates (Config.default.withMode .moduleUnits) spreadShapes markedShape
          spreadMerged sources ∧ source ∈ sources ∧ source.module = .root ∧
        source.context.uses = ["use std::fmt::Debug;", "use core::fmt::Debug;"] ∧
        ∃ first second : Import, first.line = "use std::fmt::Debug;" ∧
          second.line = "use core::fmt::Debug;" ∧ first.Clashes second := by
  have wraps : (Config.default.withMode .moduleUnits).mode = .moduleUnits := rfl
  obtain ⟨sources, generated⟩ := generates_spreadShapes
  have hosts : sources.map GeneratedSource.module = [.root, ⟨["near"]⟩, ⟨["far"]⟩] :=
    sourcesOf_modules generated.sources
  obtain ⟨first, rest, rfl, host, -⟩ := List.map_eq_cons_iff.mp hosts
  obtain ⟨globs, uses⟩ := Generates.context_eq wraps generated List.mem_cons_self
  rw [host] at globs uses
  have other : first.context.globs = [⟨["near"]⟩, ⟨["far"]⟩] := globs
  rw [other] at uses
  refine ⟨by decide +kernel, _, first, generated, List.mem_cons_self, host,
    uses.trans (by decide +kernel), ⟨"", false, ["std", "fmt"], .name "Debug"⟩,
    ⟨"", false, ["core", "fmt"], .name "Debug"⟩, ?_, ?_, ?_⟩
  · decide +kernel
  · decide +kernel
  · decide

end Generation

end VariantMerge
