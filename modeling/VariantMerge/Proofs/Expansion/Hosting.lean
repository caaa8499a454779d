import VariantMerge.Proofs.Expansion.Assembly
import VariantMerge.Proofs.Scan.Declared

/-!
# Where generated items belong

All generated items of an expanded module go to its end. The scan also finds what is declared in
inner modules, at any depth (`Discovery.declaredAt_of_found`), and an interface only has to have its
hierarchy together in the module that declares it. So what is added for an interface belongs into
the module that declares everything that belongs to the interface (`Generation.Together`), and this
is the expanded module exactly for the interfaces at its top level
(`Expansion.Accepts.module_hosts`).
-/

namespace VariantMerge

namespace Hierarchy

/-- The traits of a hierarchy are scanned. -/
theorem Includes.mem_traits {scan : ScanResult} {interface : Interface} {decl : TraitDecl}
    (included : Includes scan interface decl) (own : interface.toTraitDecl ∈ scan.traits) :
    decl ∈ scan.traits := by
  cases included with
  | own => exact own
  | bound _ _ _ leads =>
      unfold declOf? at leads
      split at leads
      · cases leads
        exact own
      · exact List.mem_of_find?_eq_some leads

end Hierarchy

namespace Generation

variable {config : Config} {scan : ScanResult} {interface : Interface}

/-- Everything that belongs to an interface is declared in one module, at the end of a path: the
traits of its hierarchy, its own among them, and the structs that implement it. -/
structure Together (config : Config) (scan : ScanResult) (items : List Item)
    (interface : Interface) (path : List String) : Prop where
  traits : ∀ decl, Hierarchy.Includes scan interface decl →
    decl.module.segments = path ∧ Item.DeclaredAt items path (.trait decl.item)
  variants : ∀ name, MergedType.nameFor interface.name config.interfacePrefix = .ok name →
    ∀ decl ∈ scan.variantsOf interface.name name,
      decl.module.segments = path ∧ Item.DeclaredAt items path (.struct decl.item)

/-- In place, no declaration may be elsewhere. -/
theorem strays_eq_nil {variants : List Variant} {members : MemberSet}
    (inPlace : config.mode = .inPlace)
    (placed : checkPlaces config interface variants members = .ok ()) :
    strays interface.module variants members = [] := by
  cases found : strays interface.module variants members with
  | nil => rfl
  | cons stray rest =>
      simp only [checkPlaces, inPlace, found] at placed
      cases placed

/-- In place, an interface generates only if everything is in one module. -/
theorem Generates.inOneModule {merged : MergedType} {sources : List GeneratedSource}
    (inPlace : config.mode = .inPlace)
    (generates : Generates config scan interface merged sources) :
    InOneModule config scan interface := by
  have prepared : Prepared config scan interface merged.name merged.variants merged.members
      merged.layout :=
    ⟨generates.name, generates.variants, generates.members, generates.layout⟩
  exact prepared.strays_eq_nil_iff.mp (strays_eq_nil inPlace generates.places)

/-- In place, all sources are hosted by the interface's module. -/
theorem Generates.module_eq {merged : MergedType} {sources : List GeneratedSource}
    (inPlace : config.mode = .inPlace)
    (generates : Generates config scan interface merged sources) {source : GeneratedSource}
    (listed : source ∈ sources) : source.module = interface.module := by
  have headed : source.heading ∈ headings merged := by
    rw [(sourcesOf_contents generates.sources).1]
    exact List.mem_map_of_mem listed
  obtain own | variants := List.mem_cons.mp headed
  · rw [← generates.module]
    exact congrArg (·.2.2.2) own
  · obtain ⟨variant, member, same⟩ := List.mem_map.mp variants
    have module : source.module = variant.module := congrArg (·.2.2.2) same.symm
    by_contra elsewhere
    have stray : (variant.name, variant.module) ∈
        strays interface.module merged.variants merged.members := by
      refine List.mem_filter.mpr ⟨List.mem_append_left _ (List.mem_map_of_mem member), ?_⟩
      rw [bne_iff_ne, ← module]
      exact elsewhere
    rw [strays_eq_nil inPlace generates.places] at stray
    cases stray

/-- What is found together in a unit is declared together. -/
theorem InOneModule.together {name : String} {items : List Item}
    (together : InOneModule config (ScanResult.ofUnits config.marker [⟨name, .root, items⟩])
      interface)
    (listed : interface ∈ (ScanResult.ofUnits config.marker [⟨name, .root, items⟩]).interfaces) :
    Together config (ScanResult.ofUnits config.marker [⟨name, .root, items⟩]) items interface
      interface.module.segments := by
  have own := (mem_interfaces_iff.mp listed).1
  refine ⟨fun decl included => ?_, fun mergedName named decl implements => ?_⟩
  · have here : decl.module = interface.module := together _ _ (.trait included)
    refine ⟨congrArg ModulePath.segments here, ?_⟩
    rw [← here]
    exact Discovery.declaredAt_of_found
      (ScanResult.found_of_mem_traits (included.mem_traits own))
  · have here : decl.module = interface.module := together _ _ (.variant named implements)
    refine ⟨congrArg ModulePath.segments here, ?_⟩
    rw [← here]
    exact Discovery.declaredAt_of_found
      (ScanResult.found_of_mem_structs (List.mem_filter.mp implements).1)

/-- What an interface adds, it generates. -/
theorem exists_generates {source : GeneratedSource}
    (listed : source ∈ (added config scan interface).1) :
    ∃ merged, Generates config scan interface merged (added config scan interface).1 := by
  rw [added_eq] at listed ⊢
  cases ran : (ofInterface config scan interface).outcome with
  | error failure =>
      rw [ran] at listed
      cases listed
  | ok sources =>
      rw [ran] at listed
      obtain ⟨_, -, -, rfl⟩ | generated := ofInterface_eq_ok_iff.mp ran
      · cases listed
      · exact generated

end Generation

namespace Expansion

open Generation

variable {arguments declaration : String} {config : Config} {head : ModuleHead} {items : List Item}

/-- **Where generated items belong.** The items of all sources go to the end of the expanded module.
What an interface adds belongs into one module, which declares the traits of its hierarchy and all
its variants, and hosts all of its sources; an interface whose declarations are scattered adds
nothing. But this module need not be the one that is expanded: it is for all sources exactly if every
interface that adds some has its declarations at the top level, and not in an inner module. -/
theorem Accepts.module_hosts (accepts : Accepts arguments declaration config head items)
    {tokens : List Token} (expanded : (module arguments declaration).value = .ok tokens) :
    let scan := ScanResult.ofUnits config.marker [unitOf head items]
    let output := (Generation.run config [unitOf head items]).value
    (∃ made,
      List.Forall₂ (fun source read => generatedItems source = .ok read) output.sources made ∧
        tokens = assembled config head items made.flatten output.diagnostics) ∧
    output.sources = scan.interfaces.flatMap (fun interface => (added config scan interface).1) ∧
    (∀ interface ∈ scan.interfaces, ∀ source ∈ (added config scan interface).1,
      source.module = interface.module ∧
        Together config scan items interface source.module.segments) ∧
    (∀ interface ∈ scan.interfaces, ¬ InOneModule config scan interface →
      (added config scan interface).1 = []) ∧
    ((∀ source ∈ output.sources, source.module = .root) ↔
      ∀ interface ∈ scan.interfaces, (added config scan interface).1 ≠ [] →
        Together config scan items interface []) := by
  intro scan output
  have sources : output.sources =
      scan.interfaces.flatMap fun interface => (added config scan interface).1 :=
    (run_eq_added config [unitOf head items]).1
  have hosted (interface : Interface) (source : GeneratedSource)
      (listed : source ∈ (added config scan interface).1) : source.module = interface.module := by
    obtain ⟨merged, generates⟩ := exists_generates listed
    exact generates.module_eq accepts.mode listed
  have whole (interface : Interface) (some_ : (added config scan interface).1 ≠ []) :
      InOneModule config scan interface := by
    obtain ⟨source, listed⟩ := List.exists_mem_of_ne_nil _ some_
    obtain ⟨merged, generates⟩ := exists_generates listed
    exact generates.inOneModule accepts.mode
  have together (interface : Interface) (declared : interface ∈ scan.interfaces)
      (source : GeneratedSource) (listed : source ∈ (added config scan interface).1) :
      Together config scan items interface source.module.segments := by
    rw [hosted interface source listed]
    exact (whole interface (List.ne_nil_of_mem listed)).together declared
  refine ⟨accepts.module_eq_ok_iff.mp expanded, sources,
    fun interface declared source listed =>
      ⟨hosted interface source listed, together interface declared source listed⟩,
    fun interface declared apart => ?_, ?_⟩
  · by_contra some_
    exact apart (whole interface some_)
  · rw [sources]
    constructor
    · intro atRoot interface declared some_
      obtain ⟨source, listed⟩ := List.exists_mem_of_ne_nil _ some_
      have module := atRoot source (List.mem_flatMap.mpr ⟨interface, declared, listed⟩)
      have found := together interface declared source listed
      rwa [module] at found
    · intro atTop source listed
      obtain ⟨interface, declared, here⟩ := List.mem_flatMap.mp listed
      have found := atTop interface declared (List.ne_nil_of_mem here)
      obtain ⟨segments, -⟩ := found.traits _ .own
      rw [hosted interface source here]
      exact congrArg ModulePath.mk segments

/-! ## An interface in an inner module -/

/-- A module that declares everything in an inner module. -/
def nestedText : String :=
  "mod outer \x7b
    mod inner \x7b
        #[polymorphic_struct] trait IShape \x7b\x7d
        struct Square;
        impl IShape for Square \x7b\x7d
    \x7d
\x7d"

set_option maxRecDepth 8000 in
/-- The interface in the inner module has the drafts of a shape. -/
theorem accepts_nested : ∃ head items, Accepts "" nestedText .default head items ∧
    (fun scan : ScanResult => scan.interfaces.map (drafts .default "    " scan))
      (ScanResult.ofUnits Config.default.marker [unitOf head items]) = [some (shapeDrafts ⟨["inner"]⟩)] := by
  refine exists_accepts_of_read String.toList_ofList ?_
  decide +kernel

/-- The sources of the inner interface, which all have declarations, are hosted by the inner module. -/
theorem expands_nested : ∃ head items tokens, Accepts "" nestedText .default head items ∧
    (module "" nestedText).value = .ok tokens ∧
    let scan := ScanResult.ofUnits Config.default.marker [unitOf head items]
    ∃ interface ∈ scan.interfaces, ∃ source ∈ (added .default scan interface).1,
      source.module = ⟨["inner"]⟩ ∧ ∃ made, generatedItems source = .ok made ∧ made ≠ [] := by
  obtain ⟨head, items, accepts, drafted⟩ := accepts_nested
  have sources := (run_eq_added .default [unitOf head items]).1
  generalize found : ScanResult.ofUnits Config.default.marker [unitOf head items] = scan
    at drafted sources
  obtain ⟨interface, alone, drafted⟩ := List.map_eq_singleton_iff.mp drafted
  have built : Config.default.indent.unit? = some "    " := rfl
  obtain ⟨type, rest, becomesType, later, both⟩ :=
    List.forall₂_cons_left_iff.mp (added_drafts built drafted).1
  obtain ⟨variant, none_, becomesVariant, last, rfl⟩ := List.forall₂_cons_left_iff.mp later
  obtain rfl := List.forall₂_nil_left_iff.mp last
  obtain ⟨typeItems, typeRead, some_⟩ := generatedItems_eq_ok becomesType parse_shapeTypeLines
  obtain ⟨variantItems, variantRead, -⟩ :=
    generatedItems_eq_ok becomesVariant parse_squareLines
  have all : (run .default [unitOf head items]).value.sources = [type, variant] := by
    rw [sources, alone, List.flatMap_singleton, both]
  refine ⟨head, items, _, accepts, accepts.module_eq_ok_iff.mpr
    ⟨[typeItems, variantItems], ?_, rfl⟩, interface, ?_, type, ?_, becomesType.module,
    typeItems, typeRead, ?_⟩
  · rw [all]
    exact .cons typeRead (.cons variantRead .nil)
  · rw [found, alone]
    exact List.mem_singleton_self interface
  · rw [found, both]
    exact List.mem_cons_self
  · rintro rfl
    cases some_

/-- What the inner interface adds belongs into the inner module, which declares all of it. -/
theorem module_hosts_nested : ∃ head items tokens, Accepts "" nestedText .default head items ∧
    (module "" nestedText).value = .ok tokens ∧
    let scan := ScanResult.ofUnits Config.default.marker [unitOf head items]
    ∃ interface ∈ scan.interfaces, (added .default scan interface).1 ≠ [] ∧
      Together .default scan items interface ["inner"] := by
  obtain ⟨head, items, tokens, accepts, expanded, interface, found, source, listed, hosted, -⟩ :=
    expands_nested
  obtain ⟨-, -, together, -⟩ := accepts.module_hosts expanded
  obtain ⟨-, whole⟩ := together interface found source listed
  rw [hosted] at whole
  exact ⟨head, items, tokens, accepts, expanded, interface, found, List.ne_nil_of_mem listed, whole⟩

/-- But its items go to the end of the outer module. -/
theorem module_misplaces : ∃ head items tokens made, Accepts "" nestedText .default head items ∧
    (module "" nestedText).value = .ok tokens ∧
    let output := (Generation.run .default [unitOf head items]).value
    tokens = assembled .default head items made output.diagnostics ∧
    ∃ source ∈ output.sources, source.module ≠ .root ∧
      ∃ own, generatedItems source = .ok own ∧ own ≠ [] ∧ own ⊆ made := by
  obtain ⟨head, items, tokens, accepts, expanded, interface, found, source, listed, hosted, own,
    read, some_⟩ := expands_nested
  obtain ⟨made, all, same⟩ := accepts.module_eq_ok_iff.mp expanded
  have here : source ∈ (Generation.run .default [unitOf head items]).value.sources := by
    rw [(run_eq_added .default [unitOf head items]).1]
    exact List.mem_flatMap.mpr ⟨interface, found, listed⟩
  obtain ⟨other, among, readHere⟩ := exists_of_forall₂ all here
  obtain rfl : own = other := Except.ok.inj (read.symm.trans readHere)
  refine ⟨head, items, tokens, made.flatten, accepts, expanded, same, source, here, ?_, own, read,
    some_, ?_⟩
  · rw [hosted]
    decide
  · exact fun item listed => List.mem_flatten_of_mem among listed

end Expansion

end VariantMerge
