import VariantMerge.Proofs.Generation.UseContext
import VariantMerge.Proofs.Scan.Declared
import VariantMerge.Proofs.Scan.EmptyUnits

/-!
# Modules that host sources

The modules that a pass yields are those of its units and all modules inside of them that are
declared with their items, each once and in the order in which they are discovered
(`Generation.run_modules_listsOnce`). Every source is hosted by one of them, so the sources of all
modules are all sources of the pass (`Generation.run_homes`).
-/

namespace VariantMerge

/-! ## Modules of units -/

mutual

/-- The modules that an item stands for with their items, each before those inside of it. -/
def Item.innerModules (above : ModulePath) : Item → List ModulePath
  | .module head (some items) =>
    above.child head.name :: innerModulesOfAll (above.child head.name) items
  | _ => []

def Item.innerModulesOfAll (above : ModulePath) : List Item → List ModulePath
  | [] => []
  | item :: rest => item.innerModules above ++ innerModulesOfAll above rest

end

/-- The module of a unit and those inside of it. -/
def SourceUnit.modules (unit : SourceUnit) : List ModulePath :=
  unit.module :: Item.innerModulesOfAll unit.module unit.items

namespace ScanResult

mutual

theorem enteredIn_ofItem (module : ModulePath) :
    (item : Item) → enteredIn (Discovery.ofItem module item) = item.innerModules module
  | .module head (some items) => by
    rw [Discovery.ofItem, Item.innerModules, ← enteredIn_ofItems _ items]
    rfl
  | .module _ none | .trait _ | .struct _ | .impl _ | .use _ | .other _ => rfl

theorem enteredIn_ofItems (module : ModulePath) : (items : List Item) →
    enteredIn (Discovery.ofItems module items) = Item.innerModulesOfAll module items
  | [] => rfl
  | item :: rest => by
    rw [Discovery.ofItems, Item.innerModulesOfAll, ← enteredIn_ofItem module item,
      ← enteredIn_ofItems module rest]
    exact List.filterMap_append

end

theorem enteredIn_ofUnits (units : List SourceUnit) :
    enteredIn (Discovery.ofUnits units) = units.flatMap SourceUnit.modules := by
  rw [enteredIn, Discovery.ofUnits, List.filterMap_flatMap]
  refine List.flatMap_congr fun unit _ => ?_
  rw [SourceUnit.modules, ← enteredIn_ofItems]
  rfl

end ScanResult

namespace Item

mutual

theorem mem_innerModules {above module : ModulePath} : (item : Item) →
    module ∈ item.innerModules above → ∃ path head inner,
      DeclaredAt [item] path (.module head (some inner)) ∧
        module.segments = above.segments ++ path ++ [head.name]
  | .module head (some items), listed => by
    rw [innerModules, List.mem_cons] at listed
    obtain rfl | inside := listed
    · exact ⟨[], head, items, .here List.mem_cons_self, by simp [ModulePath.child]⟩
    · obtain ⟨path, other, inner, declared, segments⟩ := mem_innerModulesOfAll items inside
      refine ⟨head.name :: path, other, inner, .inside List.mem_cons_self declared, ?_⟩
      simpa [ModulePath.child] using segments
  | .module _ none, listed
  | .trait _, listed
  | .struct _, listed
  | .impl _, listed
  | .use _, listed
  | .other _, listed => nomatch listed

theorem mem_innerModulesOfAll {above module : ModulePath} : (items : List Item) →
    module ∈ innerModulesOfAll above items → ∃ path head inner,
      DeclaredAt items path (.module head (some inner)) ∧
        module.segments = above.segments ++ path ++ [head.name]
  | [], listed => nomatch listed
  | item :: rest, listed => by
    rw [innerModulesOfAll, List.mem_append] at listed
    obtain here | later := listed
    · obtain ⟨path, head, inner, declared, segments⟩ := mem_innerModules item here
      exact ⟨path, head, inner, declared.mono (List.cons_subset_cons item (List.nil_subset rest)),
        segments⟩
    · obtain ⟨path, head, inner, declared, segments⟩ := mem_innerModulesOfAll rest later
      exact ⟨path, head, inner, declared.mono (List.subset_cons_self item rest), segments⟩

end

theorem innerModules_subset {above : ModulePath} {items : List Item} {item : Item}
    (listed : item ∈ items) : item.innerModules above ⊆ innerModulesOfAll above items := by
  induction items with
  | nil => cases listed
  | cons first rest ih =>
      rw [innerModulesOfAll]
      obtain rfl | later := List.mem_cons.mp listed
      · exact fun _ found => List.mem_append_left _ found
      · exact fun _ found => List.mem_append_right _ (ih later found)

/-- The modules inside of these items are those that are declared in them with their items. -/
theorem mem_innerModulesOfAll_iff {above module : ModulePath} {items : List Item} :
    module ∈ innerModulesOfAll above items ↔ ∃ path head inner,
      DeclaredAt items path (.module head (some inner)) ∧
        module.segments = above.segments ++ path ++ [head.name] := by
  refine ⟨mem_innerModulesOfAll items, ?_⟩
  rintro ⟨path, head, inner, declared, segments⟩
  generalize same : Item.module head (some inner) = item at declared
  induction declared generalizing above with
  | here listed =>
      subst same
      refine innerModules_subset listed ?_
      have here : module = above.child head.name := by
        cases module
        simpa [ModulePath.child] using segments
      rw [here, innerModules]
      exact List.mem_cons_self
  | @inside items within outer path item listed _ ih =>
      refine innerModules_subset listed ?_
      rw [innerModules]
      exact List.mem_cons_of_mem _ (ih (by simpa [ModulePath.child] using segments) same)

end Item

/-! ## Values by a key -/

section

variable [BEq κ] [LawfulBEq κ] (key : α → κ)

theorem perm_flatMap_filter {keys : List κ} (distinct : keys.Nodup) (values : List α) :
    (keys.flatMap fun wanted => values.filter (key · == wanted)).Perm
      (values.filter fun value => keys.contains (key value)) := by
  induction keys with
  | nil => simp
  | cons first rest ih =>
      obtain ⟨apart, distinct⟩ := List.nodup_cons.mp distinct
      have here : (values.filter fun value => (first :: rest).contains (key value)).filter
          (key · == first) = values.filter (key · == first) := by
        rw [List.filter_filter]
        refine List.filter_congr fun value _ => ?_
        by_cases same : key value = first <;> simp [same]
      have later : (values.filter fun value => (first :: rest).contains (key value)).filter
          (!key · == first) = values.filter fun value => rest.contains (key value) := by
        rw [List.filter_filter]
        refine List.filter_congr fun value _ => ?_
        by_cases same : key value = first
        · simp [same, apart]
        · simp [same]
      rw [List.flatMap_cons]
      refine (List.Perm.append_left _ (ih distinct)).trans ?_
      have split := List.filter_append_perm (key · == first)
        (values.filter fun value => (first :: rest).contains (key value))
      rwa [here, later] at split

/-- Distinct keys among which are those of all values part the values. -/
theorem perm_flatMap_filter_of_mem {keys : List κ} (distinct : keys.Nodup) {values : List α}
    (listed : ∀ value ∈ values, key value ∈ keys) :
    (keys.flatMap fun wanted => values.filter (key · == wanted)).Perm values := by
  have all : (values.filter fun value => keys.contains (key value)) = values :=
    List.filter_eq_self.mpr fun value found => List.contains_iff_mem.mpr (listed value found)
  have parted := perm_flatMap_filter key distinct values
  rwa [all] at parted

end

namespace Generation

theorem run_modules_listsOnce (config : Config) (units : List SourceUnit) :
    ListsOnce (units.flatMap SourceUnit.modules) (run config units).value.modules := by
  have modules : (run config units).value.modules =
      (ScanResult.enteredIn (Discovery.ofUnits units)).eraseDups := by
    rw [run_modules]
    exact (List.map_map ..).trans (List.map_id _)
  rw [modules, ScanResult.enteredIn_ofUnits]
  exact .eraseDups _

/-- What is found is in a module that the pass yields. -/
theorem mem_run_modules_of_found {config : Config} {units : List SourceUnit} {module : ModulePath}
    {item : Item} (found : .found module item ∈ Discovery.ofUnits units) :
    module ∈ (run config units).value.modules := by
  rw [(run_modules_listsOnce config units).mem_iff, ← ScanResult.enteredIn_ofUnits,
    ScanResult.enteredIn, ← List.mem_eraseDups]
  exact ScanResult.mem_modulesOf_iff.mpr (Discovery.entered_of_found found)

/-- A source is hosted by a module in which something is found. -/
theorem found_of_mem_sources {config : Config} {units : List SourceUnit} {source : GeneratedSource}
    (listed : source ∈ (run config units).value.sources) :
    ∃ item, .found source.module item ∈ Discovery.ofUnits units := by
  obtain ⟨interface, declared, merged, sources, generated, among⟩ :=
    exists_generates_of_mem_sources listed
  have host : source.module ∈ sources.map GeneratedSource.module := List.mem_map_of_mem among
  rw [sourcesOf_modules generated.sources, generated.variantModules_eq, generated.module,
    List.mem_cons, List.mem_map] at host
  obtain same | ⟨decl, implements, same⟩ := host
  · rw [same]
    exact ⟨_, ScanResult.found_of_mem_traits (mem_interfaces_iff.mp declared).1⟩
  · rw [← same]
    exact ⟨_, ScanResult.found_of_mem_structs (List.mem_filter.mp implements).1⟩

/-- **Every source has a home.** The modules of a pass are distinct, in the order in which they are
discovered, and they are those of the units and all that are declared inside of them with their items,
however deep. Each source is hosted by exactly one of them, and what these host, in the order of the
pass, makes up all its sources. -/
theorem run_homes (config : Config) (units : List SourceUnit) :
    let output := (run config units).value
    ListsOnce (units.flatMap SourceUnit.modules) output.modules ∧
      (∀ module, module ∈ output.modules ↔ ∃ unit ∈ units, module = unit.module ∨
        ∃ path head inner, Item.DeclaredAt unit.items path (.module head (some inner)) ∧
          module.segments = unit.module.segments ++ path ++ [head.name]) ∧
      (∀ source ∈ output.sources,
        ∃! module, module ∈ output.modules ∧ source ∈ output.sourcesIn module) ∧
      (output.modules.flatMap output.sourcesIn).Perm output.sources ∧
      ∀ module, (output.sourcesIn module).Sublist output.sources := by
  intro output
  have modules := run_modules_listsOnce config units
  have hosted : ∀ source ∈ output.sources, source.module ∈ output.modules := by
    intro source listed
    obtain ⟨item, found⟩ := found_of_mem_sources listed
    exact mem_run_modules_of_found found
  refine ⟨modules, fun module => ?_, fun source listed => ?_,
    perm_flatMap_filter_of_mem _ modules.once hosted, fun module => List.filter_sublist⟩
  · rw [modules.mem_iff, List.mem_flatMap]
    simp only [SourceUnit.modules, List.mem_cons, Item.mem_innerModulesOfAll_iff]
  · refine ⟨source.module, ⟨hosted source listed, ?_⟩, ?_⟩
    · exact List.mem_filter.mpr ⟨listed, beq_self_eq_true source.module⟩
    · rintro module ⟨-, inside⟩
      exact (beq_iff_eq.mp (List.mem_filter.mp inside).2).symm

end Generation

end VariantMerge
