import Mathlib.Data.List.Basic
import VariantMerge.Proofs.Scan.Resolution

/-!
# Units without items

A unit without items only enters its module. Nothing is found there on its account, so a scan is the
same without it, but that it may know of one module less (`ScanResult.ofUnits_sameButEmpty`).
-/

namespace VariantMerge

namespace SourceUnit

def declares (unit : SourceUnit) : Bool :=
  !unit.items.isEmpty

/-- The lists have the same units, apart from those without items. -/
def SameButEmpty (units others : List SourceUnit) : Prop :=
  units.filter declares = others.filter declares

end SourceUnit

namespace Discovery

/-- What is read off a row does not depend on units without items, if nothing is read where they are
entered. -/
theorem filterMap_declaring {read : Discovery → Option α} {units : List SourceUnit}
    (silent : ∀ unit ∈ units, unit.items = [] → read (.entered unit.module) = none) :
    (ofUnits units).filterMap read =
      (ofUnits (units.filter SourceUnit.declares)).filterMap read := by
  induction units with
  | nil => rfl
  | cons unit rest ih =>
      have later := ih fun other listed => silent other (List.mem_cons_of_mem _ listed)
      have first : ofUnits (unit :: rest) =
          (entered unit.module :: ofItems unit.module unit.items) ++ ofUnits rest :=
        List.flatMap_cons
      rw [first, List.filterMap_append, later]
      by_cases empty : unit.items = []
      · have nothing : (entered unit.module :: ofItems unit.module unit.items).filterMap read =
            [] := by
          rw [empty, List.filterMap_cons_none (silent unit List.mem_cons_self empty)]
          rfl
        rw [nothing, List.filter_cons_of_neg (by simp [SourceUnit.declares, empty])]
        rfl
      · rw [List.filter_cons_of_pos (by simp [SourceUnit.declares, empty]),
          ← List.filterMap_append]
        rfl

theorem filterMap_sameButEmpty {read : Discovery → Option α}
    (silent : ∀ module, read (.entered module) = none) {units others : List SourceUnit}
    (same : SourceUnit.SameButEmpty units others) :
    (ofUnits units).filterMap read = (ofUnits others).filterMap read := by
  rw [filterMap_declaring fun unit _ _ => silent unit.module, same,
    ← filterMap_declaring fun unit _ _ => silent unit.module]

end Discovery

namespace ScanResult

/-! ## Modules without imports and child modules -/

theorem infoOf_eq_of_not_entered {units : List SourceUnit} {module : ModulePath}
    (unknown : .entered module ∉ Discovery.ofUnits units) :
    infoOf (Discovery.ofUnits units) module = ⟨[], []⟩ := by
  have absent (item : Item) : .found module item ∉ Discovery.ofUnits units :=
    fun found => unknown (Discovery.entered_of_found found)
  refine congrArg₂ ModuleInfo.mk ?_ ?_
  · refine List.filterMap_eq_nil_iff.mpr fun step listed => ?_
    split
    next here item => exact if_neg fun same => absent _ (same ▸ listed)
    next => rfl
  · refine List.filterMap_eq_nil_iff.mpr fun step listed => ?_
    split
    next here head items => exact if_neg fun same => absent _ (same ▸ listed)
    next => rfl

/-- What is known of a module is all that was found in it. -/
theorem infoIn_withoutClaims (marker : String) (units : List SourceUnit) (module : ModulePath) :
    (withoutClaims marker (Discovery.ofUnits units)).infoIn module =
      infoOf (Discovery.ofUnits units) module := by
  have looked : (withoutClaims marker (Discovery.ofUnits units)).module? module = _ :=
    module?_ofUnits marker units module
  rw [infoIn, looked]
  split
  next => rfl
  next unknown =>
    rw [List.contains_iff_mem, mem_modulesOf_iff] at unknown
    exact (infoOf_eq_of_not_entered unknown).symm

/-! ## Scanning -/

/-- Two scans that differ in nothing but which modules without imports and child modules are
known. -/
structure SameButEmpty (scan other : ScanResult) : Prop where
  interfaces : scan.interfaces = other.interfaces
  traits : scan.traits = other.traits
  structs : scan.structs = other.structs
  infos : ∀ module, scan.infoIn module = other.infoIn module

/-- **Units without items add nothing to a scan** but modules without imports and child modules. -/
theorem ofUnits_sameButEmpty (marker : String) {units others : List SourceUnit}
    (same : SourceUnit.SameButEmpty units others) :
    SameButEmpty (ofUnits marker units) (ofUnits marker others) := by
  have traits : traitsOf (Discovery.ofUnits units) = traitsOf (Discovery.ofUnits others) :=
    Discovery.filterMap_sameButEmpty (fun _ => rfl) same
  have claims : claimsOf (Discovery.ofUnits units) = claimsOf (Discovery.ofUnits others) :=
    Discovery.filterMap_sameButEmpty (fun _ => rfl) same
  have infos (module : ModulePath) : infoOf (Discovery.ofUnits units) module =
      infoOf (Discovery.ofUnits others) module :=
    congrArg₂ ModuleInfo.mk (Discovery.filterMap_sameButEmpty (fun _ => rfl) same)
      (Discovery.filterMap_sameButEmpty (fun _ => rfl) same)
  have before : SameButEmpty (withoutClaims marker (Discovery.ofUnits units))
      (withoutClaims marker (Discovery.ofUnits others)) := by
    refine ⟨congrArg (List.filterMap _) traits, traits, ?_, fun module => ?_⟩
    · exact Discovery.filterMap_sameButEmpty (fun _ => rfl) same
    · rw [infoIn_withoutClaims, infoIn_withoutClaims, infos]
  refine ⟨before.interfaces, before.traits, ?_, before.infos⟩
  have resolved := resolveStruct_congr before.structs before.infos
  simp only [ofUnits, claims, before.structs, resolved]

/-- The modules that are entered in a row, as often as they are. -/
def enteredIn (row : List Discovery) : List ModulePath :=
  row.filterMap fun step =>
    match step with
    | .entered module => some module
    | .found _ _ => none

theorem modulesOf_eq_eraseDups (row : List Discovery) :
    modulesOf row = (enteredIn row).eraseDups := rfl

/-- If the modules of units without items are known, the other modules are entered alike. -/
theorem enteredIn_sameButEmpty {known : List ModulePath} {units others : List SourceUnit}
    (same : SourceUnit.SameButEmpty units others)
    (listed : ∀ unit ∈ units ++ others, unit.items = [] → unit.module ∈ known) :
    (enteredIn (Discovery.ofUnits units)).removeAll known =
      (enteredIn (Discovery.ofUnits others)).removeAll known := by
  unfold enteredIn List.removeAll
  rw [List.filter_filterMap, List.filter_filterMap, Discovery.filterMap_declaring, same,
    ← Discovery.filterMap_declaring]
  · intro unit member empty
    simp [listed unit (List.mem_append_right _ member) empty]
  · intro unit member empty
    simp [listed unit (List.mem_append_left _ member) empty]

end ScanResult

end VariantMerge
