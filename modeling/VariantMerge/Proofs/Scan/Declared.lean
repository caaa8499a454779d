import VariantMerge.Proofs.Scan.Claims

/-!
# Where declarations are found

The scan finds what is declared in the modules of its units, those in other modules included, at any
depth. Whatever it finds is an item of some unit, or one inside of the modules among its items
(`Discovery.declaredAt_of_found_ofItems`).
-/

namespace VariantMerge

/-- An item is one of these items, or one inside of their inner modules at the end of a path. -/
inductive Item.DeclaredAt : List Item → List String → Item → Prop
  | here {items : List Item} {item : Item} (listed : item ∈ items) : DeclaredAt items [] item
  | inside {items inner : List Item} {head : ModuleHead} {path : List String} {item : Item}
      (listed : Item.module head (some inner) ∈ items) (below : DeclaredAt inner path item) :
      DeclaredAt items (head.name :: path) item

theorem Item.DeclaredAt.mono {items more : List Item} {path : List String} {item : Item}
    (declared : DeclaredAt items path item) (among : items ⊆ more) : DeclaredAt more path item := by
  cases declared with
  | here listed => exact .here (among listed)
  | inside listed below => exact .inside (among listed) below

namespace Discovery

mutual

/-- What is found with an item is the item, or is declared in it. -/
theorem declaredAt_of_found_ofItem {module other : ModulePath} {item : Item} :
    (outer : Item) → found other item ∈ ofItem module outer →
      ∃ path, other.segments = module.segments ++ path ∧ Item.DeclaredAt [outer] path item
  | .module head (.some items), listed => by
    rw [ofItem, List.mem_cons, List.mem_cons] at listed
    obtain here | contrary | inside := listed
    · cases here
      exact ⟨[], by simp, .here List.mem_cons_self⟩
    · cases contrary
    · obtain ⟨path, segments, below⟩ := declaredAt_of_found_ofItems items inside
      refine ⟨head.name :: path, ?_, .inside List.mem_cons_self below⟩
      simpa [ModulePath.child] using segments
  | .module _ .none, listed
  | .trait _, listed
  | .struct _, listed
  | .impl _, listed
  | .use _, listed
  | .other _, listed => by
    cases List.mem_singleton.mp listed
    exact ⟨[], by simp, .here List.mem_cons_self⟩

theorem declaredAt_of_found_ofItems {module other : ModulePath} {item : Item} :
    (items : List Item) → found other item ∈ ofItems module items →
      ∃ path, other.segments = module.segments ++ path ∧ Item.DeclaredAt items path item
  | [], listed => nomatch listed
  | first :: rest, listed => by
    rw [ofItems, List.mem_append] at listed
    obtain here | later := listed
    · obtain ⟨path, segments, declared⟩ := declaredAt_of_found_ofItem first here
      exact ⟨path, segments, declared.mono (List.cons_subset_cons first (List.nil_subset rest))⟩
    · obtain ⟨path, segments, declared⟩ := declaredAt_of_found_ofItems rest later
      exact ⟨path, segments, declared.mono (List.subset_cons_self first rest)⟩

end

/-- What is found in a unit at the root is declared at the end of its path. -/
theorem declaredAt_of_found {name : String} {items : List Item} {module : ModulePath} {item : Item}
    (listed : found module item ∈ ofUnits [⟨name, .root, items⟩]) :
    Item.DeclaredAt items module.segments item := by
  rw [ofUnits, List.flatMap_singleton, List.mem_cons] at listed
  obtain contrary | inside := listed
  · cases contrary
  · obtain ⟨path, segments, declared⟩ := declaredAt_of_found_ofItems items inside
    rw [segments]
    exact declared

end Discovery

namespace ScanResult

theorem found_of_mem_traits {marker : String} {units : List SourceUnit} {decl : TraitDecl}
    (listed : decl ∈ (ofUnits marker units).traits) :
    Discovery.found decl.module (.trait decl.item) ∈ Discovery.ofUnits units := by
  obtain ⟨step, found, read⟩ := List.mem_filterMap.mp listed
  split at read
  · cases read
    exact found
  · cases read

theorem found_of_mem_structs {marker : String} {units : List SourceUnit} {decl : StructDecl}
    (listed : decl ∈ (ofUnits marker units).structs) :
    Discovery.found decl.module (.struct decl.item) ∈ Discovery.ofUnits units := by
  let scan := withoutClaims marker (Discovery.ofUnits units)
  -- Claims change neither the modules nor the items.
  have declared : (decl.module, decl.item) ∈
      (structsOf (Discovery.ofUnits units)).map fun decl => (decl.module, decl.item) := by
    have same := foldl_applyClaim_declared scan (claimsOf (Discovery.ofUnits units)) scan.structs
    exact same ▸ List.mem_map_of_mem listed
  obtain ⟨first, there, same⟩ := List.mem_map.mp declared
  obtain ⟨step, found, read⟩ := List.mem_filterMap.mp there
  split at read
  · cases read
    cases same
    exact found
  · cases read

end ScanResult

end VariantMerge
