import Mathlib.Data.List.Pairwise
import VariantMerge.Proofs.Generation.Modes
import VariantMerge.Proofs.Import.Meaning
import VariantMerge.Proofs.Scan.Imports

/-!
# What sources import

A module unit stands in a module of its own, so it imports everything from the other modules that
the hierarchy is declared in, and by name what these import from elsewhere. Both lists name each
thing once, in the order in which it comes up first (`ListsOnce`), which leaves only one list to be
right (`ListsOnce.unique`). `Generation.Generates.context_exact` says what is listed.
-/

namespace VariantMerge

/-- The list has each value of a row once, in the order in which the row has them first. -/
structure ListsOnce [BEq α] (row listed : List α) : Prop where
  once : listed.Nodup
  mem_iff : ∀ value, value ∈ listed ↔ value ∈ row
  order : listed.Pairwise fun first second => row.idxOf first < row.idxOf second

namespace ListsOnce

variable [BEq α] {row listed other : List α}

/-- There is only one such list. -/
theorem unique (lists : ListsOnce row listed) (again : ListsOnce row other) : listed = other := by
  have same : listed.Perm other := (List.perm_ext_iff_of_nodup lists.once again.once).mpr
    fun value => (lists.mem_iff value).trans (again.mem_iff value).symm
  exact same.eq_of_pairwise (fun _ _ _ _ before after => absurd after (Nat.lt_asymm before))
    lists.order again.order

variable [LawfulBEq α]

/-- What is dropped from a row does not change which of two other values comes first. -/
theorem idxOf_lt_of_filter {keep : α → Bool} {first second : α} (first_ : keep first)
    (second_ : keep second) (before : (row.filter keep).idxOf first < (row.filter keep).idxOf second) :
    row.idxOf first < row.idxOf second := by
  induction row with
  | nil => cases before
  | cons value rest ih =>
      by_cases kept : keep value
      · rw [List.filter_cons_of_pos kept] at before
        by_cases isSecond : value = second
        · rw [isSecond, List.idxOf_cons_self] at before
          cases before
        · by_cases isFirst : value = first
          · rw [List.idxOf_cons_ne _ isSecond, isFirst, List.idxOf_cons_self]
            exact Nat.succ_pos _
          · rw [List.idxOf_cons_ne _ isFirst, List.idxOf_cons_ne _ isSecond] at before ⊢
            exact Nat.succ_lt_succ (ih (Nat.lt_of_succ_lt_succ before))
      · rw [List.filter_cons_of_neg kept] at before
        have notFirst : value ≠ first := fun same => kept (same ▸ first_)
        have notSecond : value ≠ second := fun same => kept (same ▸ second_)
        rw [List.idxOf_cons_ne _ notFirst, List.idxOf_cons_ne _ notSecond]
        exact Nat.succ_lt_succ (ih before)

theorem pairwise_eraseDups (row : List α) :
    row.eraseDups.Pairwise fun first second => row.idxOf first < row.idxOf second := by
  match row with
  | [] => exact .nil
  | value :: rest =>
      rw [List.eraseDups_cons]
      refine .cons (fun later listed => ?_) ?_
      · have other : later ≠ value := by
          have kept := (List.mem_filter.mp (List.mem_eraseDups.mp listed)).2
          simpa using kept
        rw [List.idxOf_cons_self, List.idxOf_cons_ne _ other.symm]
        exact Nat.succ_pos _
      · -- What remains is in the order of the rest without the first value.
        refine (pairwise_eraseDups (rest.filter fun other => !other == value)).imp_of_mem ?_
        intro first second firstListed secondListed before
        have first_ := (List.mem_filter.mp (List.mem_eraseDups.mp firstListed)).2
        have second_ := (List.mem_filter.mp (List.mem_eraseDups.mp secondListed)).2
        have notFirst : value ≠ first := by rintro rfl; simp at first_
        have notSecond : value ≠ second := by rintro rfl; simp at second_
        rw [List.idxOf_cons_ne _ notFirst, List.idxOf_cons_ne _ notSecond]
        exact Nat.succ_lt_succ (idxOf_lt_of_filter first_ second_ before)
termination_by row.length
decreasing_by exact Nat.lt_succ_of_le (List.length_filter_le _ _)

theorem eraseDups (row : List α) : ListsOnce row row.eraseDups where
  once := (pairwise_eraseDups row).imp fun before same => absurd (same ▸ before) (Nat.lt_irrefl _)
  mem_iff _ := List.mem_eraseDups
  order := pairwise_eraseDups row

end ListsOnce

namespace Generation

variable {config : Config} {scan : ScanResult} {interface : Interface} {merged : MergedType}
  {sources : List GeneratedSource} {source : GeneratedSource}

/-- An import that nothing else makes up for: it gives a new name, or it is not from an involved
module or the host. -/
def HasToBeNamed (involved : List ModulePath) (host : ModulePath) (anchored : Import) : Prop :=
  anchored.imported.isRenamed ∨ ∀ module ∈ host :: involved, ¬ anchored.IsFrom module

instance (involved : List ModulePath) (host : ModulePath) :
    DecidablePred (HasToBeNamed involved host) :=
  fun _ => inferInstanceAs (Decidable (_ ∨ _))

theorem isCovered_eq_false_iff {involved : List ModulePath} {host : ModulePath}
    {anchored : Import} :
    isCovered involved host anchored = false ↔ HasToBeNamed involved host anchored := by
  unfold isCovered HasToBeNamed
  rw [Bool.and_eq_false_iff, Bool.not_eq_false']
  refine or_congr_right ?_
  simp only [← Import.sourceModule?_eq_some_iff]
  cases anchored.sourceModule? with
  | none => simp
  | some origin =>
      simp only [Option.any_some, Option.some.injEq, Bool.or_eq_false_iff, beq_eq_false_iff_ne,
        List.contains_eq_mem, decide_eq_false_iff_not, List.mem_cons, forall_eq_or_imp]
      constructor
      · rintro ⟨elsewhere, absent⟩
        exact ⟨elsewhere, fun module listed same => absent (same ▸ listed)⟩
      · rintro ⟨elsewhere, absent⟩
        exact ⟨elsewhere, fun listed => absent origin listed rfl⟩

/-- The modules that an interface is spread over, in the order in which they are involved. -/
def involvedModules (scan : ScanResult) (interface : Interface) (merged : MergedType) :
    List ModulePath :=
  interface.module :: merged.members.traits.map TraitMembers.module ++
    (scan.variantsOf interface.name merged.name).map StructDecl.module

theorem Generates.prepared (generated : Generates config scan interface merged sources) :
    Prepared config scan interface merged.name merged.variants merged.members merged.layout :=
  ⟨generated.name, generated.variants, generated.members, generated.layout⟩

/-- Variants are in the modules of their structs. -/
theorem Generates.variantModules_eq (generated : Generates config scan interface merged sources) :
    merged.variants.map Variant.module =
      (scan.variantsOf interface.name merged.name).map StructDecl.module := by
  have made := Except.mapM_eq_ok_iff.mp generated.variants
  rw [eq_comm, ← List.forall₂_eq_eq_eq, List.forall₂_map_left_iff, List.forall₂_map_right_iff]
  exact made.imp fun _ _ read => (Variant.ofStruct_declared read).2.symm

theorem Generates.involved_eq (generated : Generates config scan interface merged sources) :
    merged.involved = involvedModules scan interface merged := by
  rw [MergedType.involved, involvedModules, generated.module, generated.variantModules_eq]

/-- A module is involved exactly if something that belongs to the interface is declared in it. -/
theorem Generates.mem_involved_iff (generated : Generates config scan interface merged sources)
    {module : ModulePath} :
    module ∈ involvedModules scan interface merged ↔
      ∃ name, Declares config scan interface name module := by
  have declared := fun found : String × ModulePath =>
    @Prepared.mem_declared_iff config scan interface _ _ _ _ generated.prepared found
  rw [← generated.involved_eq, MergedType.involved, List.mem_append, List.mem_cons, List.mem_map,
    List.mem_map]
  constructor
  · rintro ((rfl | ⟨own, listed, rfl⟩) | ⟨variant, listed, rfl⟩)
    · rw [generated.module]
      exact ⟨interface.name, .trait .own⟩
    · have found := List.mem_map_of_mem (f := fun own : TraitMembers => (own.name, own.module)) listed
      exact ⟨own.name, (declared _).mp (List.mem_append_right _ found)⟩
    · have found := List.mem_map_of_mem
        (f := fun variant : Variant => (variant.name, variant.module)) listed
      exact ⟨variant.name, (declared _).mp (List.mem_append_left _ found)⟩
  · rintro ⟨name, declares⟩
    obtain found | found := List.mem_append.mp ((declared (name, module)).mpr declares)
    · obtain ⟨variant, listed, same⟩ := List.mem_map.mp found
      exact .inr ⟨variant, listed, congrArg Prod.snd same⟩
    · obtain ⟨own, listed, same⟩ := List.mem_map.mp found
      exact .inl (.inr ⟨own, listed, congrArg Prod.snd same⟩)

/-- What a source imports depends on the module that hosts it only. -/
theorem context_of_mem_sources (written : sourcesOf config scan merged = .ok sources)
    (listed : source ∈ sources) :
    source.context = contextFor config scan merged source.module := by
  obtain ⟨first, rest, made, others, rfl⟩ := sourcesOf_eq_ok_iff.mp written
  obtain rfl | later := List.mem_cons.mp listed
  · obtain ⟨text, -, same⟩ := mergedSource_eq_ok_iff.mp made
    cases same
    rfl
  · obtain ⟨variant, -, made⟩ := exists_of_forall₂ others.flip later
    obtain ⟨text, -, same⟩ := variantSource_eq_ok_iff.mp made
    cases same
    rfl

theorem neededLines_eq (scan : ScanResult) (involved : List ModulePath) (host module : ModulePath) :
    neededLines scan involved host module =
      ((scan.importsIn module).filter (HasToBeNamed involved host)).map Import.line := by
  have needed (anchored : Import) : (!isCovered involved host anchored) =
      decide (HasToBeNamed involved host anchored) := by
    simp only [← isCovered_eq_false_iff]
    cases isCovered involved host anchored <;> rfl
  unfold neededLines ScanResult.importsIn
  simp only [needed]
  cases scan.module? module <;> rfl

theorem Generates.context_eq (wraps : config.mode = .moduleUnits)
    (generated : Generates config scan interface merged sources) (listed : source ∈ sources) :
    let involved := involvedModules scan interface merged
    source.context.globs = (involved.filter (· ≠ source.module)).eraseDups ∧
      source.context.uses = (source.context.globs.flatMap fun module =>
        ((scan.importsIn module).filter (HasToBeNamed involved source.module)).map
          Import.line).eraseDups := by
  intro involved
  have context := context_of_mem_sources generated.sources listed
  simp only [contextFor, wraps] at context
  rw [context, useContext, generated.involved_eq]
  constructor
  · refine congrArg List.eraseDups (List.filter_congr fun module _ => ?_)
    rw [decide_not]
    rfl
  · exact congrArg List.eraseDups
      (List.flatMap_congr fun module _ => neededLines_eq scan involved source.module module)

/-- **What module units import.** In order of first occurrence, and each once, a source imports
everything from the involved modules other than its host, and by name what these import and what has
to be named. -/
theorem Generates.context_exact (wraps : config.mode = .moduleUnits)
    (generated : Generates config scan interface merged sources) (listed : source ∈ sources) :
    let host := source.module
    let context := source.context
    let involved := involvedModules scan interface merged
    (∀ module, module ∈ involved ↔ ∃ name, Declares config scan interface name module) ∧
      ListsOnce (involved.filter (· ≠ host)) context.globs ∧
      ListsOnce (context.globs.flatMap fun module =>
        ((scan.importsIn module).filter (HasToBeNamed involved host)).map Import.line) context.uses ∧
      ∀ units, scan = .ofUnits config.marker units → ∀ line, line ∈ context.uses ↔
        ∃ module ∈ context.globs, ∃ item, .found module (.use item) ∈ Discovery.ofUnits units ∧
          ∃ anchored ∈ Import.ofUse item module
            (ScanResult.infoOf (Discovery.ofUnits units) module).children,
            HasToBeNamed involved host anchored ∧ anchored.line = line := by
  intro host context involved
  obtain ⟨globs, uses⟩ := Generates.context_eq wraps generated listed
  refine ⟨fun module => generated.mem_involved_iff, globs ▸ .eraseDups _, uses ▸ .eraseDups _, ?_⟩
  rintro units rfl line
  simp only [context, uses, List.mem_eraseDups, List.mem_flatMap, List.mem_map, List.mem_filter,
    decide_eq_true_eq, ScanResult.mem_importsIn_iff]
  constructor
  · rintro ⟨module, imported, anchored, ⟨⟨item, found, made⟩, needed⟩, written⟩
    exact ⟨module, imported, item, found, anchored, made, needed, written⟩
  · rintro ⟨module, imported, item, found, anchored, made, needed, written⟩
    exact ⟨module, imported, anchored, ⟨⟨item, found, made⟩, needed⟩, written⟩

/-- What the root and the other module import from each other, and on account of each other. -/
theorem context_exact_farShapes :
    (Config.default.withMode .moduleUnits).mode = .moduleUnits ∧
      ∃ sources, Generates (Config.default.withMode .moduleUnits) farShapes markedShape farMerged
          sources ∧
        sources.map GeneratedSource.module = [.root, .root, ⟨["far"]⟩] ∧
        ∀ source ∈ sources,
          (source.module = .root → source.context.globs = [⟨["far"]⟩] ∧ source.context.uses =
            ["use crate::Origin as Zero;", "use std::fmt::Debug;", "use glam::*;"]) ∧
          (source.module = ⟨["far"]⟩ → source.context.globs = [.root] ∧ source.context.uses =
            ["use std::fmt;", "use std::fmt::Debug;"]) := by
  have wraps : (Config.default.withMode .moduleUnits).mode = .moduleUnits := rfl
  obtain ⟨sources, generated⟩ := generates_farShapes
  have hosts : sources.map GeneratedSource.module = [.root, .root, ⟨["far"]⟩] := by
    have headings := congrArg (List.map (·.2.2.2)) (sourcesOf_contents generated.sources).1
    rw [List.map_map] at headings
    exact headings.symm
  refine ⟨wraps, sources, generated, hosts, fun source listed => ?_⟩
  obtain ⟨-, globs, uses, -⟩ := Generates.context_exact wraps generated listed
  have globs := globs.unique (.eraseDups _)
  have uses := uses.unique (.eraseDups _)
  constructor
  · intro host
    rw [host] at globs uses
    have far : source.context.globs = [⟨["far"]⟩] := globs
    rw [far] at uses
    exact ⟨far, uses.trans (by decide +kernel)⟩
  · intro host
    rw [host] at globs uses
    have root : source.context.globs = [.root] := globs
    rw [root] at uses
    exact ⟨root, uses.trans (by decide +kernel)⟩

end Generation

end VariantMerge
