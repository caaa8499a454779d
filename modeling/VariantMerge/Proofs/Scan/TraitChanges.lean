import Mathlib.Data.List.Basic
import VariantMerge.Proofs.Scan.Resolution

/-!
# Changed traits

If every trait of a list of units is changed in the same way, those of inner modules too, then the
units are discovered as before with the change applied to every trait (`Discovery.ofUnits_mapTraits`).
The structs, their claims, the modules and the imports are read off without a look at any trait.
-/

namespace VariantMerge

mutual

/-- The item with every trait in it changed. -/
def Item.mapTraits (change : TraitItem → TraitItem) : Item → Item
  | .trait item => .trait (change item)
  | .module head (.some items) => .module head (.some (mapTraitsOfAll change items))
  | item => item

def Item.mapTraitsOfAll (change : TraitItem → TraitItem) : List Item → List Item
  | [] => []
  | item :: rest => item.mapTraits change :: mapTraitsOfAll change rest

end

def SourceUnit.mapTraits (change : TraitItem → TraitItem) (unit : SourceUnit) : SourceUnit :=
  { unit with items := Item.mapTraitsOfAll change unit.items }

def TraitDecl.mapItem (change : TraitItem → TraitItem) (decl : TraitDecl) : TraitDecl :=
  { decl with item := change decl.item }

variable {change : TraitItem → TraitItem}

namespace Item

/-- Traits are changed in each item by itself. -/
theorem mapTraitsOfAll_eq_map (change : TraitItem → TraitItem) (items : List Item) :
    mapTraitsOfAll change items = items.map (mapTraits change) := by
  induction items with
  | nil => rfl
  | cons item rest ih => rw [mapTraitsOfAll, ih, List.map_cons]

mutual

/-- Two changes one after the other are one change. -/
theorem mapTraits_mapTraits (again change : TraitItem → TraitItem) : (item : Item) →
    (item.mapTraits change).mapTraits again = item.mapTraits fun item => again (change item)
  | .trait _ => rfl
  | .struct _ => rfl
  | .impl _ => rfl
  | .use _ => rfl
  | .module _ .none => rfl
  | .module head (.some items) => by
    rw [mapTraits, mapTraits, mapTraits, mapTraitsOfAll_mapTraitsOfAll]
  | .other _ => rfl

/-- Two changes of a list one after the other are one change. -/
theorem mapTraitsOfAll_mapTraitsOfAll (again change : TraitItem → TraitItem) :
    (items : List Item) → mapTraitsOfAll again (mapTraitsOfAll change items) =
      mapTraitsOfAll (fun item => again (change item)) items
  | [] => rfl
  | item :: rest => by
    rw [mapTraitsOfAll, mapTraitsOfAll, mapTraitsOfAll, mapTraits_mapTraits,
      mapTraitsOfAll_mapTraitsOfAll]

end

variable {outer : Item}

/-- A changed item that is a trait is a changed trait. -/
theorem eq_change_of_mapTraits {item : TraitItem} (same : outer.mapTraits change = .trait item) :
    ∃ before, item = change before := by
  cases outer with
  | trait before =>
      cases same
      exact ⟨before, rfl⟩
  | module head content => cases content <;> cases same
  | struct _ => cases same
  | impl _ => cases same
  | use _ => cases same
  | other _ => cases same

/-- A changed item that is a module has changed items. -/
theorem eq_mapTraitsOfAll_of_mapTraits {head : ModuleHead} {items : List Item}
    (same : outer.mapTraits change = .module head (some items)) :
    ∃ before, items = mapTraitsOfAll change before := by
  cases outer with
  | module head content =>
      cases content with
      | none => cases same
      | some before =>
          cases same
          exact ⟨before, rfl⟩
  | trait _ => cases same
  | struct _ => cases same
  | impl _ => cases same
  | use _ => cases same
  | other _ => cases same

end Item

namespace Discovery

def mapTraits (change : TraitItem → TraitItem) : Discovery → Discovery
  | entered module => entered module
  | found module item => found module (item.mapTraits change)

mutual

/-- An item is discovered alike whatever its traits are. -/
theorem ofItem_mapTraits (module : ModulePath) : (item : Item) →
    ofItem module (item.mapTraits change) = (ofItem module item).map (mapTraits change)
  | .trait _ => rfl
  | .struct _ => rfl
  | .impl _ => rfl
  | .use _ => rfl
  | .module _ .none => rfl
  | .module head (.some items) => by
    rw [Item.mapTraits, ofItem, ofItem, ofItems_mapTraits]
    rfl
  | .other _ => rfl

/-- What is discovered in changed items is changed likewise. -/
theorem ofItems_mapTraits (module : ModulePath) : (items : List Item) →
    ofItems module (Item.mapTraitsOfAll change items) = (ofItems module items).map (mapTraits change)
  | [] => rfl
  | item :: rest => by
    rw [Item.mapTraitsOfAll, ofItems, ofItems, ofItem_mapTraits, ofItems_mapTraits, List.map_append]

end

/-- What is discovered in changed units is changed likewise. -/
theorem ofUnits_mapTraits (change : TraitItem → TraitItem) (units : List SourceUnit) :
    ofUnits (units.map (SourceUnit.mapTraits change)) = (ofUnits units).map (mapTraits change) := by
  rw [ofUnits, ofUnits, List.flatMap_map, List.map_flatMap]
  refine List.flatMap_congr fun unit _ => ?_
  exact congrArg _ (ofItems_mapTraits unit.module unit.items)

end Discovery

namespace ScanResult

/-- What is read from a step does not depend on traits, if it does not for a trait and for a module
with items. -/
theorem filterMap_mapTraits (change : TraitItem → TraitItem) {read : Discovery → Option α}
    (traits : ∀ module item, read (.found module (.trait (change item))) =
      read (.found module (.trait item)))
    (modules : ∀ module head items,
      read (.found module (.module head (some (Item.mapTraitsOfAll change items)))) =
        read (.found module (.module head (some items))))
    (row : List Discovery) :
    (row.map (Discovery.mapTraits change)).filterMap read = row.filterMap read := by
  have same (step : Discovery) : read (step.mapTraits change) = read step := by
    cases step with
    | entered module => rfl
    | found module item =>
        cases item with
        | trait item => exact traits module item
        | module head content =>
            cases content with
            | none => rfl
            | some items => exact modules module head items
        | struct item => rfl
        | impl item => rfl
        | use item => rfl
        | other tokens => rfl
  rw [List.filterMap_map]
  exact List.filterMap_congr fun step _ => same step

variable (change) (row : List Discovery)

/-- Changing traits changes no struct. -/
theorem structsOf_mapTraits : structsOf (row.map (Discovery.mapTraits change)) = structsOf row :=
  filterMap_mapTraits change (fun _ _ => rfl) (fun _ _ _ => rfl) row

/-- Changing traits changes no claim, as long as their names stay. -/
theorem claimsOf_mapTraits : claimsOf (row.map (Discovery.mapTraits change)) = claimsOf row :=
  filterMap_mapTraits change (fun _ _ => rfl) (fun _ _ _ => rfl) row

/-- Changing traits changes nothing that is known of a module. -/
theorem infoOf_mapTraits (module : ModulePath) :
    infoOf (row.map (Discovery.mapTraits change)) module = infoOf row module :=
  congrArg₂ ModuleInfo.mk (filterMap_mapTraits change (fun _ _ => rfl) (fun _ _ _ => rfl) row)
    (filterMap_mapTraits change (fun _ _ => rfl) (fun _ _ _ => rfl) row)

/-- Changing traits changes no module. -/
theorem modulesOf_mapTraits : modulesOf (row.map (Discovery.mapTraits change)) = modulesOf row :=
  congrArg List.eraseDups (filterMap_mapTraits change (fun _ _ => rfl) (fun _ _ _ => rfl) row)

/-- The scanned traits are the changed ones. -/
theorem traitsOf_mapTraits : traitsOf (row.map (Discovery.mapTraits change)) =
    (traitsOf row).map (TraitDecl.mapItem change) := by
  rw [traitsOf, List.filterMap_map, traitsOf, List.map_filterMap]
  refine List.filterMap_congr fun step _ => ?_
  cases step with
  | entered module => rfl
  | found module item =>
      cases item with
      | module head content => cases content <;> rfl
      | _ => rfl

/-- **A change of all traits shows in the traits.** The structs, with their claims, and the modules are
the same. -/
theorem ofUnits_mapTraits (marker : String) (units : List SourceUnit) :
    ofUnits marker (units.map (SourceUnit.mapTraits change)) =
      { ofUnits marker units with
        interfaces := interfacesOf marker
          ((Discovery.ofUnits units).map (Discovery.mapTraits change))
        traits := (ofUnits marker units).traits.map (TraitDecl.mapItem change) } := by
  let row := Discovery.ofUnits units
  have structs : (withoutClaims marker (row.map (Discovery.mapTraits change))).structs =
      (withoutClaims marker row).structs := structsOf_mapTraits change row
  have traits : (withoutClaims marker (row.map (Discovery.mapTraits change))).traits =
      (withoutClaims marker row).traits.map (TraitDecl.mapItem change) := traitsOf_mapTraits change row
  have modules : (withoutClaims marker (row.map (Discovery.mapTraits change))).modules =
      (withoutClaims marker row).modules := by
    change (modulesOf _).map _ = (modulesOf _).map _
    simp only [modulesOf_mapTraits, infoOf_mapTraits]
  have resolves := resolveStruct_congr structs fun module => by
    rw [infoIn, infoIn, module?, module?, modules]
  simp only [ofUnits, Discovery.ofUnits_mapTraits, claimsOf_mapTraits, resolves, structs, traits,
    modules, row]
  rfl

end ScanResult

end VariantMerge
