import VariantMerge.Proofs.Generation.Drafts
import VariantMerge.Proofs.Merged.RoutineNames

/-!
# Types that a module is given

Each interface that succeeds declares two types in its module, the merged struct and the enumeration
that tells its variants (`Generation.mem_declaredTypes_iff`). Among interfaces of distinct names the
structs are distinct, and so are the enumerations, since all names are made in the same way. So two of
all these types have one name exactly if an interface is called like another one and the suffix of
enumerations (`Generation.declaredTypes_nodup_iff`), which nothing checks (`Generation.types_clash`).
-/

namespace VariantMerge

/-- Names and the same names with a suffix are all distinct, unless one is another with the suffix. -/
theorem nodup_suffixed_iff {names : List String} {suffix : String} (distinct : names.Nodup)
    (some_ : suffix ≠ "") : (names.flatMap fun name => [name ++ suffix, name]).Nodup ↔
      ∀ first ∈ names, ∀ second ∈ names, first ≠ second ++ suffix := by
  have longer (name : String) : name ≠ name ++ suffix := by
    intro same
    have lengths := congrArg String.length same
    have positive : suffix.length ≠ 0 := fun zero => some_ (String.length_eq_zero_iff.mp zero)
    rw [String.length_append] at lengths
    omega
  rw [List.nodup_flatMap]
  constructor
  · rintro ⟨-, apart⟩ first listed second alsoListed rfl
    have symmetric : Std.Symm (Function.onFun List.Disjoint fun name => [name ++ suffix, name]) :=
      ⟨fun _ _ => List.Disjoint.symm⟩
    have here := apart.forall listed alsoListed (longer second).symm
    exact here (List.mem_cons_of_mem _ List.mem_cons_self) List.mem_cons_self
  · intro apart
    refine ⟨fun name _ => by simpa using (longer name).symm, ?_⟩
    refine distinct.imp_of_mem fun {first second} listed alsoListed different => ?_
    simp only [List.disjoint_cons_left, List.mem_cons, List.not_mem_nil, or_false, not_or,
      List.disjoint_nil_left, and_true]
    refine ⟨⟨?_, ?_⟩, ?_, different⟩
    · exact fun same => different ((String.append_left_inj suffix).mp same)
    · exact (apart second alsoListed first listed).symm
    · exact apart first listed second alsoListed

namespace Generation

variable {config : Config} {scan : ScanResult} {interface : Interface} {merged : MergedType}
  {module : ModulePath} {sources : List GeneratedSource}

/-- Merging and writing is generating. -/
theorem generates_iff : Generates config scan interface merged sources ↔
    mergedOf config scan interface = .ok (some merged) ∧ sourcesOf config scan merged = .ok sources := by
  constructor
  · intro generated
    refine ⟨?_, generated.sources⟩
    have some_ : ¬ merged.variants.isEmpty = true :=
      fun empty => generated.nonempty (List.isEmpty_iff.mp empty)
    rw [mergedOf, generated.name]
    simp only [Except.bind, generated.variants, generated.members, generated.layout, generated.places,
      if_neg some_]
    rw [assemble, ← generated.typeIdName, ← generated.interfaceName, ← generated.module,
      ← generated.visibility]
  · rintro ⟨merges, written⟩
    obtain ⟨name, named, merges⟩ := Except.bind_eq_ok_iff.mp merges
    obtain ⟨variants, read, merges⟩ := Except.bind_eq_ok_iff.mp merges
    split at merges
    next => cases merges
    next some_ =>
      obtain ⟨members, collected, merges⟩ := Except.bind_eq_ok_iff.mp merges
      obtain ⟨layout, built, merges⟩ := Except.bind_eq_ok_iff.mp merges
      obtain ⟨_, placed, merges⟩ := Except.bind_eq_ok_iff.mp merges
      cases merges
      exact ⟨named, read, fun empty => some_ (List.isEmpty_iff.mpr empty), collected, built, placed,
        rfl, rfl, rfl, rfl, written⟩

/-- The merged type of an interface that succeeds with one. -/
def generatedType? (config : Config) (scan : ScanResult) (interface : Interface) : Option MergedType :=
  match mergedOf config scan interface with
  | .ok (some merged) => if (sourcesOf config scan merged).isOk then some merged else none
  | _ => none

theorem generatedType?_eq_some_iff : generatedType? config scan interface = some merged ↔
    ∃ sources, Generates config scan interface merged sources := by
  simp only [generates_iff, exists_and_left]
  unfold generatedType?
  split
  next found merges =>
    rw [merges]
    cases written : sourcesOf config scan found with
    | ok sources =>
        simp only [Except.isOk, Except.toBool, if_true, Option.some.injEq, Except.ok.injEq]
        constructor
        · rintro rfl
          exact ⟨rfl, sources, written⟩
        · exact And.left
    | error failure =>
        refine ⟨nofun, ?_⟩
        rintro ⟨same, sources, read⟩
        cases same
        rw [written] at read
        cases read
  next other =>
    refine ⟨nofun, ?_⟩
    rintro ⟨merges, -⟩
    exact absurd merges (other merged)

/-- The names of all types that the interfaces of a module declare there, in order. -/
def declaredTypes (config : Config) (scan : ScanResult) (module : ModulePath) : List String :=
  ((scan.interfaces.filter (·.module = module)).filterMap (generatedType? config scan)).flatMap
    fun merged => [(merged.discriminant config).name, (merged.mergedStruct config).name]

/-- An interface of the module is generated as this merged type. -/
def HostsType (config : Config) (scan : ScanResult) (module : ModulePath) (interface : Interface)
    (merged : MergedType) : Prop :=
  interface ∈ scan.interfaces ∧ interface.module = module ∧
    ∃ sources, Generates config scan interface merged sources

theorem mem_generated_iff : merged ∈ (scan.interfaces.filter (·.module = module)).filterMap
      (generatedType? config scan) ↔ ∃ interface, HostsType config scan module interface merged := by
  simp only [List.mem_filterMap, List.mem_filter, decide_eq_true_eq, generatedType?_eq_some_iff,
    HostsType, and_assoc]

/-- What is declared in a module is the enumeration and the struct of each type hosted there, whose
source has their declarations. -/
theorem mem_declaredTypes_iff {name : String} : name ∈ declaredTypes config scan module ↔
    ∃ interface merged, HostsType config scan module interface merged ∧
      (name = (merged.discriminant config).name ∨ name = (merged.mergedStruct config).name) := by
  simp only [declaredTypes, List.mem_flatMap, mem_generated_iff, List.mem_cons, List.not_mem_nil,
    or_false]
  constructor
  · rintro ⟨merged, ⟨interface, hosts⟩, named⟩
    exact ⟨interface, merged, hosts, named⟩
  · rintro ⟨interface, merged, hosts, named⟩
    exact ⟨merged, ⟨interface, hosts⟩, named⟩

theorem HostsType.name_eq (hosts : HostsType config scan module interface merged) :
    interface.name = config.interfacePrefix ++ merged.name := by
  obtain ⟨-, -, sources, generated⟩ := hosts
  exact (MergedType.nameFor_eq_ok_iff.mp generated.name).1

theorem HostsType.typeIdName_eq (hosts : HostsType config scan module interface merged) :
    merged.typeIdName = merged.name ++ config.typeIdSuffix := by
  obtain ⟨-, -, sources, generated⟩ := hosts
  exact generated.typeIdName

/-- Interfaces of distinct names are generated as types of distinct names. -/
theorem generatedNames_nodup
    (distinct : ((scan.interfaces.filter (·.module = module)).map (·.name)).Nodup) :
    (((scan.interfaces.filter (·.module = module)).filterMap (generatedType? config scan)).map
      MergedType.name).Nodup := by
  have apart := List.pairwise_map.mp distinct
  refine List.pairwise_map.mpr (List.pairwise_filterMap.mpr (apart.imp ?_))
  intro first second different merged found other alsoFound
  obtain ⟨_, generated⟩ := generatedType?_eq_some_iff.mp found
  obtain ⟨_, alsoGenerated⟩ := generatedType?_eq_some_iff.mp alsoFound
  exact generated.name_ne alsoGenerated different

theorem declaredTypes_eq (config : Config) (scan : ScanResult) (module : ModulePath) :
    declaredTypes config scan module =
      (((scan.interfaces.filter (·.module = module)).filterMap (generatedType? config scan)).map
        MergedType.name).flatMap fun name => [name ++ config.typeIdSuffix, name] := by
  rw [List.flatMap_map, declaredTypes]
  refine List.flatMap_congr fun merged listed => ?_
  obtain ⟨interface, hosts⟩ := mem_generated_iff.mp listed
  rw [← hosts.typeIdName_eq]
  rfl

/-- **Types of a module.** If the interfaces of a module have distinct names, the types that they
declare have distinct names exactly if no interface that succeeds there is called like another one of
them and the suffix of enumerations. That is so if no interface of the module ends in that suffix. -/
theorem declaredTypes_nodup_iff {accepted : Config} (checked : Config.check config = .ok accepted)
    (distinct : ((scan.interfaces.filter (·.module = module)).map (·.name)).Nodup) :
    ((declaredTypes config scan module).Nodup ↔
      ∀ first merged, HostsType config scan module first merged →
        ∀ second other, HostsType config scan module second other →
          first.name ≠ second.name ++ config.typeIdSuffix) ∧
    ((∀ interface ∈ scan.interfaces, interface.module = module →
        ¬ config.typeIdSuffix.toList <:+ interface.name.toList) →
      (declaredTypes config scan module).Nodup) := by
  have suffixed : config.typeIdSuffix ≠ "" :=
    (config.check_eq_ok_iff.1.mp ⟨accepted, checked⟩).typeIdSuffix.nonempty
  -- The prefix is the same everywhere, so interfaces are called alike as their types are.
  have apart : (declaredTypes config scan module).Nodup ↔
      ∀ first merged, HostsType config scan module first merged →
        ∀ second other, HostsType config scan module second other →
          first.name ≠ second.name ++ config.typeIdSuffix := by
    rw [declaredTypes_eq, nodup_suffixed_iff (generatedNames_nodup distinct) suffixed]
    simp only [List.forall_mem_map, mem_generated_iff, forall_exists_index]
    constructor
    · intro apart first merged hosts second other alsoHosts same
      rw [hosts.name_eq, alsoHosts.name_eq, String.append_assoc, String.append_right_inj] at same
      exact apart merged first hosts other second alsoHosts same
    · intro apart merged first hosts other second alsoHosts same
      refine apart first merged hosts second other alsoHosts ?_
      rw [hosts.name_eq, alsoHosts.name_eq, String.append_assoc, same]
  refine ⟨apart, fun plain => apart.mpr fun first merged hosts second other _ same => ?_⟩
  refine plain first hosts.1 hosts.2.1 ⟨second.name.toList, ?_⟩
  rw [same, String.toList_append]

/-- A shape and a body in one module. -/
theorem declaredTypes_nodup_iff_shape :
    (declaredTypes .default (sharedStruct ["IShape", "IBody"]) .root).Nodup := by
  have checked : Config.check .default = .ok .default := by decide +kernel
  have distinct : (((sharedStruct ["IShape", "IBody"]).interfaces.filter (·.module = .root)).map
      (·.name)).Nodup := by decide
  refine (declaredTypes_nodup_iff checked distinct).2 ?_
  decide +kernel

/-- The enumeration for a shape is called like the merged struct of another interface. -/
theorem types_clash :
    (((sharedStruct ["IShape", "IShapeTypeId"]).interfaces.filter (·.module = .root)).map
        (·.name)).Nodup ∧
      declaredTypes .default (sharedStruct ["IShape", "IShapeTypeId"]) .root =
        ["ShapeTypeId", "Shape", "ShapeTypeIdTypeId", "ShapeTypeId"] := by
  decide +kernel

end Generation

end VariantMerge
