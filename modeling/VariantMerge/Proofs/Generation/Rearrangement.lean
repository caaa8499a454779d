import VariantMerge.Proofs.Generation.Isolation
import VariantMerge.Proofs.Scan.Claims

/-!
# Where implementation blocks stand

A pass asks of a struct only whether it claims an interface, never in which order it claims several.
So scans that are alike give every interface the same contribution (`Generation.contribution_alike`),
and a pass over units yields the same if their implementation blocks are moved, repeated or put
between others (`Generation.run_rearranged`).
-/

namespace VariantMerge

variable {scan other : ScanResult}

namespace Hierarchy

/-- A hierarchy is made from the traits alone. -/
theorem collect_congr (same : scan.traits = other.traits) (interface : Interface) :
    collect scan interface = collect other interface := by
  have parents : scan.findTrait = other.findTrait := by
    funext name
    rw [ScanResult.findTrait, ScanResult.findTrait, same]
  have visits (about : String) (depth : Nat) (decl : TraitDecl) (found : List TraitMembers) :
      visit scan about depth decl found = visit other about depth decl found := by
    induction depth generalizing decl found with
    | zero => rfl
    | succ depth ih =>
        rw [visit, visit]
        simp only [parents, ih]
  rw [collect, collect, same, visits]

end Hierarchy

namespace Generation

/-- The same structs are the variants of an interface. -/
theorem variantsOf_alike (alike : ScanResult.Alike scan other) (interface mergedName : String) :
    List.Forall₂ StructDecl.Alike (scan.variantsOf interface mergedName)
      (other.variantsOf interface mergedName) := by
  refine List.rel_filter ?_ alike.structs
  intro decl otherDecl same
  have name : decl.name = otherDecl.name := congrArg StructItem.name same.item
  simp only [Bool.and_eq_true, List.contains_iff_mem, name, same.claims]

theorem mapM_ofStruct_alike {decls others : List StructDecl}
    (alike : List.Forall₂ StructDecl.Alike decls others) :
    decls.mapM (fun decl => Variant.ofStruct decl.item decl.module) =
      others.mapM fun decl => Variant.ofStruct decl.item decl.module := by
  induction alike with
  | nil => rfl
  | cons same _ ih => rw [List.mapM_cons, List.mapM_cons, ih, same.item, same.module]

/-- What an interface contributes does not depend on the order in which structs list their
claims. -/
theorem contribution_alike (alike : ScanResult.Alike scan other) (config : Config)
    (interface : Interface) :
    contribution config scan interface = contribution config other interface := by
  refine contribution_congr (Hierarchy.collect_congr alike.traits interface) (fun name => ?_) ?_
  · exact mapM_ofStruct_alike (variantsOf_alike alike interface.name name)
  · funext involved host module
    rw [neededLines, neededLines, ScanResult.module?, ScanResult.module?, alike.modules]

/-- **The position of implementation blocks does not matter.** Two lists of units with the same
modules, traits, structs, imports and child modules in the same order, whose blocks make the same
claims, yield the same sources, diagnostics and modules. -/
theorem run_rearranged (config : Config) {units others : List SourceUnit}
    (alike : SourceUnit.DeclareAlike units others) :
    (run config units).value = (run config others).value := by
  have scans := ScanResult.ofUnits_alike config.marker alike
  have parts : contribution config (ScanResult.ofUnits config.marker units) =
      contribution config (ScanResult.ofUnits config.marker others) :=
    funext (contribution_alike scans config)
  change (ofScan config (ScanResult.ofUnits config.marker units)).value =
    (ofScan config (ScanResult.ofUnits config.marker others)).value
  rw [ofScan, ofScan, parts, scans.interfaces, scans.modules]

/-- An implementation block for a struct of this name: of a trait, of the absence of a trait, or of
no trait. -/
def blockFor (interface : Option ImplTarget) (struct : String) : Item :=
  .impl ⟨[], [], .none, interface, .named struct, []⟩

def isShape : Option ImplTarget := some ⟨false, .mk false [.mk "IShape" .none]⟩

def isNotSend : Option ImplTarget := some ⟨true, .mk false [.mk "Send" .none]⟩

def unitStruct (name : String) : Item :=
  .struct ⟨[], .everywhere, name, .none, .unit⟩

/-- Two units of the root with one shape there and one in a module inside, each of which stands
between these items. -/
def scattered (inside before after later : List Item) : List SourceUnit :=
  [⟨"shapes", .root,
      .module ⟨[], .inherited, false, "inner"⟩ (some (unitStruct "Square" :: inside)) ::
        .trait (markedTrait shapeTrait) :: before ++ unitStruct "Origin" :: after⟩,
    ⟨"more", .root, later⟩]

/-- One block for each shape, and the same blocks with one of them in another unit, one repeated and
others that claim nothing between them. -/
theorem run_rearranged_scattered :
    let units := scattered [blockFor isShape "Square"] [blockFor isShape "Origin"] [] []
    let others := scattered
      [blockFor none "Square", blockFor isShape "Square", blockFor isShape "Square"] []
      [blockFor isNotSend "Origin"] [blockFor none "Origin", blockFor isShape "Origin"]
    SourceUnit.DeclareAlike units others ∧
      ScanResult.claimsOf (Discovery.ofUnits units) ≠
        ScanResult.claimsOf (Discovery.ofUnits others) ∧
      ∀ config, (run config units).value = (run config others).value := by
  intro units others
  have here : ScanResult.claimsOf (Discovery.ofUnits units) =
      [⟨⟨["inner"]⟩, ["Square"], "IShape"⟩, ⟨.root, ["Origin"], "IShape"⟩] := rfl
  have there : ScanResult.claimsOf (Discovery.ofUnits others) =
      [⟨⟨["inner"]⟩, ["Square"], "IShape"⟩, ⟨⟨["inner"]⟩, ["Square"], "IShape"⟩,
        ⟨.root, ["Origin"], "IShape"⟩] := rfl
  have alike : SourceUnit.DeclareAlike units others := by
    refine ⟨rfl, rfl, rfl, fun module => rfl, fun claim => ?_⟩
    rw [here, there]
    simp only [List.mem_cons, or_self_left]
  refine ⟨alike, ?_, fun config => run_rearranged config alike⟩
  rw [here, there]
  decide

end Generation

end VariantMerge
