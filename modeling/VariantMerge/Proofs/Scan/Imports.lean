import VariantMerge.Scan

/-!
# Imports of scanned modules

The imports of a module are those of all `use` items found in it, wherever its items are
(`ScanResult.mem_importsIn_iff`): whatever is found in a module, the module was entered before, so
that it is looked up with all its items.
-/

namespace VariantMerge

namespace Discovery

mutual

theorem entered_of_found_ofItem {module other : ModulePath} {found_ : Item} :
    (item : Item) → found other found_ ∈ ofItem module item →
      other = module ∨ entered other ∈ ofItem module item
  | .module head (.some items), listed => by
    rw [ofItem, List.mem_cons, List.mem_cons] at listed
    obtain here | contrary | inside := listed
    · cases here
      exact .inl rfl
    · cases contrary
    · rw [ofItem, List.mem_cons, List.mem_cons]
      obtain rfl | before := entered_of_found_ofItems items inside
      · exact .inr (.inr (.inl rfl))
      · exact .inr (.inr (.inr before))
  | .module _ .none, listed
  | .trait _, listed
  | .struct _, listed
  | .impl _, listed
  | .use _, listed
  | .other _, listed => by
    cases List.mem_singleton.mp listed
    exact .inl rfl

theorem entered_of_found_ofItems {module other : ModulePath} {found_ : Item} :
    (items : List Item) → found other found_ ∈ ofItems module items →
      other = module ∨ entered other ∈ ofItems module items
  | [], listed => nomatch listed
  | item :: rest, listed => by
    rw [ofItems, List.mem_append] at listed ⊢
    obtain here | later := listed
    · exact (entered_of_found_ofItem item here).imp_right .inl
    · exact (entered_of_found_ofItems rest later).imp_right .inr

end

/-- Items are found in modules that are entered. -/
theorem entered_of_found {units : List SourceUnit} {module : ModulePath} {item : Item}
    (listed : found module item ∈ ofUnits units) : entered module ∈ ofUnits units := by
  obtain ⟨unit, declared, inUnit⟩ := List.mem_flatMap.mp listed
  obtain contrary | inside := List.mem_cons.mp inUnit
  · cases contrary
  · refine List.mem_flatMap.mpr ⟨unit, declared, List.mem_cons.mpr ?_⟩
    obtain rfl | before := entered_of_found_ofItems unit.items inside
    · exact .inl rfl
    · exact .inr before

end Discovery

namespace ScanResult

/-- The imports of single names that a module has. -/
def importsIn (scan : ScanResult) (module : ModulePath) : List Import :=
  ((scan.module? module).map fun info => info.imports module).getD []

theorem mem_modulesOf_iff {row : List Discovery} {module : ModulePath} :
    module ∈ modulesOf row ↔ .entered module ∈ row := by
  rw [modulesOf, List.mem_eraseDups, List.mem_filterMap]
  constructor
  · rintro ⟨step, listed, read⟩
    cases step with
    | entered here =>
        cases read
        exact listed
    | found here item => cases read
  · exact fun listed => ⟨_, listed, rfl⟩

theorem lookup_map_self [BEq α] [LawfulBEq α] (value : α → β) (keys : List α) (key : α) :
    (keys.map fun key => (key, value key)).lookup key =
      if keys.contains key then some (value key) else none := by
  induction keys with
  | nil => rfl
  | cons first rest ih =>
      rw [List.map_cons, List.lookup_cons, List.contains_cons]
      by_cases here : key = first
      · simp [here]
      · have other : (key == first) = false := beq_eq_false_iff_ne.mpr here
        rw [other, Bool.false_or]
        exact ih

theorem module?_ofUnits (marker : String) (units : List SourceUnit) (module : ModulePath) :
    (ofUnits marker units).module? module =
      if (modulesOf (Discovery.ofUnits units)).contains module then
        some (infoOf (Discovery.ofUnits units) module)
      else none :=
  lookup_map_self _ _ _

theorem mem_uses_iff {row : List Discovery} {module : ModulePath} {item : UseItem} :
    item ∈ (infoOf row module).uses ↔ .found module (.use item) ∈ row := by
  change item ∈ row.filterMap _ ↔ _
  rw [List.mem_filterMap]
  constructor
  · rintro ⟨step, listed, read⟩
    split at read
    next here found =>
      split at read
      next same =>
        cases read
        exact same ▸ listed
      next => cases read
    next => cases read
  · intro listed
    exact ⟨_, listed, if_pos rfl⟩

/-- **What a module imports** is what the imports found in it stand for. -/
theorem mem_importsIn_iff {marker : String} {units : List SourceUnit} {module : ModulePath}
    {anchored : Import} :
    anchored ∈ (ofUnits marker units).importsIn module ↔
      ∃ item, .found module (.use item) ∈ Discovery.ofUnits units ∧
        anchored ∈ Import.ofUse item module (infoOf (Discovery.ofUnits units) module).children := by
  unfold importsIn
  rw [module?_ofUnits]
  constructor
  · intro listed
    split at listed
    next =>
      obtain ⟨item, used, made⟩ := List.mem_flatMap.mp listed
      exact ⟨item, mem_uses_iff.mp used, made⟩
    next => cases listed
  · rintro ⟨item, found, made⟩
    have entered : (modulesOf (Discovery.ofUnits units)).contains module := by
      rw [List.contains_iff_mem, mem_modulesOf_iff]
      exact Discovery.entered_of_found found
    rw [if_pos entered]
    exact List.mem_flatMap.mpr ⟨item, mem_uses_iff.mpr found, made⟩

end ScanResult

end VariantMerge
