import Mathlib.Data.List.Forall2
import VariantMerge.Scan

/-!
# Claims of implementation blocks

An implementation block says that a struct implements a trait. Where its path leads is decided by
the declarations alone, so the blocks can be taken in any order: a struct claims an interface exactly
when some block leads to it (`ScanResult.claims_foldl`). Two lists of units that declare the same
apart from their blocks, and whose blocks make the same claims, are therefore scanned alike
(`ScanResult.ofUnits_alike`): at most the order in which a struct lists its claims is different.
-/

namespace VariantMerge

/-- Two lists of units with the same declarations in the same order, apart from implementation
blocks: the modules by where they are entered first, and the imports and child modules of each. The
blocks may stand anywhere, but they make the same claims. -/
structure SourceUnit.DeclareAlike (units others : List SourceUnit) : Prop where
  modules : ScanResult.modulesOf (Discovery.ofUnits units) =
    ScanResult.modulesOf (Discovery.ofUnits others)
  traits : ScanResult.traitsOf (Discovery.ofUnits units) =
    ScanResult.traitsOf (Discovery.ofUnits others)
  structs : ScanResult.structsOf (Discovery.ofUnits units) =
    ScanResult.structsOf (Discovery.ofUnits others)
  infos : ∀ module, ScanResult.infoOf (Discovery.ofUnits units) module =
    ScanResult.infoOf (Discovery.ofUnits others) module
  claims : ∀ claim, claim ∈ ScanResult.claimsOf (Discovery.ofUnits units) ↔
    claim ∈ ScanResult.claimsOf (Discovery.ofUnits others)

/-- One struct as it was found in two scans, perhaps with its claims in another order. -/
structure StructDecl.Alike (decl other : StructDecl) : Prop where
  module : decl.module = other.module
  item : decl.item = other.item
  claims : ∀ interface, interface ∈ decl.claims ↔ interface ∈ other.claims

namespace ScanResult

/-- Two scans that differ at most in the order in which structs list their claims. -/
structure Alike (scan other : ScanResult) : Prop where
  interfaces : scan.interfaces = other.interfaces
  traits : scan.traits = other.traits
  structs : List.Forall₂ StructDecl.Alike scan.structs other.structs
  modules : scan.modules = other.modules

/-! ## One claim -/

def Claims (structs : List StructDecl) (index : Nat) (interface : String) : Prop :=
  ∃ decl, structs[index]? = some decl ∧ interface ∈ decl.claims

theorem mem_claims_add {decl : StructDecl} {interface added : String} :
    interface ∈ (if added ∈ decl.claims then decl
      else { decl with claims := decl.claims ++ [added] }).claims ↔
      interface ∈ decl.claims ∨ interface = added := by
  by_cases present : added ∈ decl.claims
  · rw [if_pos present]
    constructor
    · exact Or.inl
    · rintro (claimed | rfl)
      · exact claimed
      · exact present
  · rw [if_neg present]
    simp only [List.mem_append, List.mem_singleton]

/-- A claim is added to the struct at its index, and no other struct changes. -/
theorem claims_addClaim {structs : List StructDecl} {index place : Nat}
    {interface added : String} :
    Claims (addClaim structs place added) index interface ↔
      Claims structs index interface ∨
        (place = index ∧ index < structs.length ∧ interface = added) := by
  unfold Claims addClaim
  rw [List.getElem?_modify]
  by_cases same : place = index
  · subst same
    cases found : structs[place]? with
    | none =>
        have short : ¬ place < structs.length := by
          simpa using found
        simp [short]
    | some decl =>
        obtain ⟨bound, -⟩ := List.getElem?_eq_some_iff.mp found
        simp [bound, mem_claims_add]
  · simp [same]

/-- A claim changes nothing of a struct but its claims. -/
theorem addClaim_declared (structs : List StructDecl) (index : Nat) (interface : String) :
    (addClaim structs index interface).map (fun decl => (decl.module, decl.item)) =
      structs.map fun decl => (decl.module, decl.item) := by
  apply List.ext_getElem?
  intro position
  rw [addClaim, List.getElem?_map, List.getElem?_modify, List.getElem?_map]
  cases structs[position]? with
  | none => rfl
  | some decl =>
      by_cases same : index = position <;> by_cases present : interface ∈ decl.claims <;>
        simp [same, present]

/-! ## All claims -/

/-- The structs after a claim, which leads to one of them or nowhere. -/
def applyClaim (scan : ScanResult) (structs : List StructDecl) (claim : Claim) :
    List StructDecl :=
  match scan.resolveStruct claim.module claim.path with
  | some index => addClaim structs index claim.interface
  | none => structs

theorem applyClaim_declared (scan : ScanResult) (structs : List StructDecl) (claim : Claim) :
    (scan.applyClaim structs claim).map (fun decl => (decl.module, decl.item)) =
      structs.map fun decl => (decl.module, decl.item) := by
  unfold applyClaim
  split
  · exact addClaim_declared ..
  · rfl

theorem foldl_applyClaim_declared (scan : ScanResult) (claims : List Claim)
    (structs : List StructDecl) :
    (claims.foldl scan.applyClaim structs).map (fun decl => (decl.module, decl.item)) =
      structs.map fun decl => (decl.module, decl.item) := by
  induction claims generalizing structs with
  | nil => rfl
  | cons claim rest ih => rw [List.foldl_cons, ih, applyClaim_declared]

theorem claims_applyClaim {scan : ScanResult} {structs : List StructDecl} {claim : Claim}
    {index : Nat} {interface : String} :
    Claims (scan.applyClaim structs claim) index interface ↔
      Claims structs index interface ∨
        (scan.resolveStruct claim.module claim.path = some index ∧
          index < structs.length ∧ interface = claim.interface) := by
  unfold applyClaim
  cases leads : scan.resolveStruct claim.module claim.path with
  | none => simp
  | some place => simp [claims_addClaim]

/-- **What a struct claims.** After all claims, a struct claims what it did before, and what some
claim that leads to it says. Neither the order of the claims nor their repetition matters. -/
theorem claims_foldl {scan : ScanResult} {claims : List Claim} {structs : List StructDecl}
    {index : Nat} {interface : String} :
    Claims (claims.foldl scan.applyClaim structs) index interface ↔
      Claims structs index interface ∨
        ∃ claim ∈ claims, scan.resolveStruct claim.module claim.path = some index ∧
          index < structs.length ∧ interface = claim.interface := by
  induction claims generalizing structs with
  | nil => simp
  | cons claim rest ih =>
      have length : (scan.applyClaim structs claim).length = structs.length := by
        simpa using congrArg List.length (scan.applyClaim_declared structs claim)
      simp only [List.foldl_cons, ih, claims_applyClaim, length, List.mem_cons,
        exists_eq_or_imp, or_assoc]

theorem forall₂_alike {structs others : List StructDecl}
    (declared : structs.map (fun decl => (decl.module, decl.item)) =
      others.map fun decl => (decl.module, decl.item))
    (claims : ∀ index interface, Claims structs index interface ↔ Claims others index interface) :
    List.Forall₂ StructDecl.Alike structs others := by
  rw [List.forall₂_iff_get]
  refine ⟨by simpa using congrArg List.length declared, fun index here there => ?_⟩
  have entry : (structs[index].module, structs[index].item) =
      (others[index].module, others[index].item) := by
    have entries := congrArg (fun list => list[index]?) declared
    simpa [here, there] using entries
  refine ⟨congrArg Prod.fst entry, congrArg Prod.snd entry, fun interface => ?_⟩
  simpa [Claims, here, there] using claims index interface

/-- **Blocks are scanned as a set.** Two lists of units that declare alike are scanned alike. -/
theorem ofUnits_alike (marker : String) {units others : List SourceUnit}
    (alike : SourceUnit.DeclareAlike units others) :
    Alike (ofUnits marker units) (ofUnits marker others) := by
  have before : withoutClaims marker (Discovery.ofUnits units) =
      withoutClaims marker (Discovery.ofUnits others) := by
    have infos : infoOf (Discovery.ofUnits units) = infoOf (Discovery.ofUnits others) :=
      funext alike.infos
    simp only [withoutClaims, interfacesOf, alike.traits, alike.structs, alike.modules, infos]
  refine ⟨(congrArg interfaces before :), (congrArg traits before :), ?_,
    (congrArg modules before :)⟩
  let scan := withoutClaims marker (Discovery.ofUnits others)
  have here : (ofUnits marker units).structs =
      (claimsOf (Discovery.ofUnits units)).foldl scan.applyClaim scan.structs := by
    simp only [ofUnits, before]
    rfl
  have there : (ofUnits marker others).structs =
      (claimsOf (Discovery.ofUnits others)).foldl scan.applyClaim scan.structs := rfl
  rw [here, there]
  apply forall₂_alike
  · rw [foldl_applyClaim_declared, foldl_applyClaim_declared]
  · intro index interface
    simp only [claims_foldl, alike.claims]

end ScanResult

end VariantMerge
