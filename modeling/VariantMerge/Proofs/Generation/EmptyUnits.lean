import VariantMerge.Proofs.Generation.Rearrangement
import VariantMerge.Proofs.Generation.UseContext
import VariantMerge.Proofs.Scan.EmptyUnits

/-!
# Passes over units without items

What an interface contributes depends on the imports of modules, but not on whether a module without
any is known (`Generation.contribution_sameButEmpty`). So a pass yields the same sources and
diagnostics with and without units that have no items, and where the modules of these units are
listed first anyway, all modules come in the same order (`Generation.run_sameButEmpty`).
-/

namespace VariantMerge

namespace ListsOnce

variable [BEq α] [LawfulBEq α]

/-- Values can be dropped before or after each is listed once. -/
theorem filter_eraseDups (keep : α → Bool) (row : List α) :
    row.eraseDups.filter keep = (row.filter keep).eraseDups := by
  match row with
  | [] => rfl
  | value :: rest =>
      have others := filter_eraseDups keep (rest.filter fun other => !other == value)
      rw [List.eraseDups_cons]
      by_cases kept : keep value
      · rw [List.filter_cons_of_pos kept, List.filter_cons_of_pos kept, List.eraseDups_cons, others,
          List.filter_filter, List.filter_filter]
        simp only [Bool.and_comm]
      · rw [List.filter_cons_of_neg kept, List.filter_cons_of_neg kept, others, List.filter_filter]
        refine congrArg List.eraseDups (List.filter_congr fun other _ => ?_)
        by_cases same : other = value
        · simp [same, kept]
        · simp [same]
termination_by row.length
decreasing_by exact Nat.lt_succ_of_le (List.length_filter_le _ _)

/-- After some values, only the other ones of a row matter. -/
theorem eraseDups_append_congr {first row other : List α}
    (same : row.removeAll first = other.removeAll first) :
    (first ++ row.eraseDups).eraseDups = (first ++ other.eraseDups).eraseDups := by
  have rest (row : List α) : row.eraseDups.removeAll first = (row.removeAll first).eraseDups :=
    filter_eraseDups _ row
  rw [List.eraseDups_append, List.eraseDups_append, rest, rest, same]

end ListsOnce

namespace Generation

variable {config : Config} {scan other : ScanResult}

/-! ## One interface -/

/-- An interface contributes the same where a module without imports and child modules is not
known. -/
theorem contribution_sameButEmpty (same : ScanResult.SameButEmpty scan other) (config : Config)
    (interface : Interface) :
    contribution config scan interface = contribution config other interface := by
  refine contribution_congr (Hierarchy.collect_congr same.traits interface) (fun name => ?_) ?_
  · rw [ScanResult.variantsOf, ScanResult.variantsOf, same.structs]
  · funext involved host module
    rw [neededLines_eq, neededLines_eq, ScanResult.importsIn_eq, ScanResult.importsIn_eq,
      same.infos]

/-! ## A pass -/

/-- **Units without items add nothing to a pass** but their modules, and no module where these are
known before. -/
theorem run_sameButEmpty (config : Config) {units others : List SourceUnit}
    (same : SourceUnit.SameButEmpty units others) :
    (run config units).value.sources = (run config others).value.sources ∧
    (run config units).value.diagnostics = (run config others).value.diagnostics ∧
    ∀ known, (∀ unit ∈ units ++ others, unit.items = [] → unit.module ∈ known) →
      (known ++ (run config units).value.modules).eraseDups =
        (known ++ (run config others).value.modules).eraseDups := by
  have scans := ScanResult.ofUnits_sameButEmpty config.marker same
  have parts : (ScanResult.ofUnits config.marker units).interfaces.map
        (contribution config (ScanResult.ofUnits config.marker units)) =
      (ScanResult.ofUnits config.marker others).interfaces.map
        (contribution config (ScanResult.ofUnits config.marker others)) := by
    rw [scans.interfaces]
    exact List.map_congr_left fun interface _ => contribution_sameButEmpty scans config interface
  refine ⟨?_, ?_, fun known listed => ?_⟩
  · exact congrArg (List.flatMap fun part => sourcesFrom part.value) parts
  · exact congrArg (List.filterMap fun part => diagnosticFrom? part.value) parts
  · have modules (units : List SourceUnit) : (run config units).value.modules =
        ScanResult.modulesOf (Discovery.ofUnits units) := by
      change ((ScanResult.modulesOf (Discovery.ofUnits units)).map _).map _ = _
      rw [List.map_map]
      exact List.map_id _
    rw [modules, modules, ScanResult.modulesOf_eq_eraseDups, ScanResult.modulesOf_eq_eraseDups]
    exact ListsOnce.eraseDups_append_congr (ScanResult.enteredIn_sameButEmpty same listed)

end Generation

end VariantMerge
