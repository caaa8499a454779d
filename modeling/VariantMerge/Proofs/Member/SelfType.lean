import VariantMerge.Proofs.Hierarchy.Functions
import VariantMerge.Proofs.Token.Nesting

/-!
# The implementing type in signatures

Dispatching methods are written for the merged type, and call those of a variant, so a signature that
names the implementing type would mean two types. `TraitMembers.ofTrait_selfType` says which parts of
a signature are looked through for it, at every depth: the types of the parameters and the result.
Generic parameters and conditions are copied unseen, so what is dispatched is free of the name
exactly if these are.
-/

namespace VariantMerge

/-! ## Where the implementing type is named -/

/-- The implementing type is named in the parameters or in the conditions. -/
def Generics.NamesSelf (generics : Generics) : Prop :=
  Token.NamesSelf generics.tokens ∨
    ∃ clause ∈ generics.conditions, Token.NamesSelf clause.tokens

/-- The type of a parameter or the result names the implementing type. -/
def Signature.NamesSelf (signature : Signature) : Prop :=
  (∃ attributes pattern ty, .typed attributes pattern ty ∈ signature.inputs.drop 1 ∧
      Token.NamesSelf ty.tokens) ∨
    ∃ ty ∈ signature.output, Token.NamesSelf ty.tokens

/-- Some part of the method's head names the implementing type. -/
def Method.NamesSelf (method : Method) : Prop :=
  ∃ tokens ∈ method.typeTokens, Token.NamesSelf tokens

namespace Signature

variable {signature : Signature} {method : Method}

theorem AcceptedAs.not_namesSelf_param (accepted : signature.AcceptedAs method) :
    ∀ param ∈ method.params, ¬ Token.NamesSelf param.ty.tokens := by
  intro param listed
  have related := (Except.mapM_eq_ok_iff.mp accepted.params).flip
  obtain ⟨⟨input, position⟩, -, made⟩ := exists_of_forall₂ related listed
  obtain ⟨-, -, -, unmentioned, -⟩ := Param.ofInput_eq_ok_iff.mp made
  rw [← Token.anyMentionsSelf_iff, unmentioned]
  exact Bool.false_ne_true

theorem AcceptedAs.not_namesSelf_output (accepted : signature.AcceptedAs method) :
    ∀ ty ∈ method.output, ¬ Token.NamesSelf ty.tokens := by
  intro ty returned
  obtain ⟨-, absent⟩ | ⟨written, -, same, -, unmentioned, -⟩ :=
    Method.outputOf_eq_ok_iff.mp accepted.output
  · cases returned.symm.trans absent
  · cases returned.symm.trans same
    rw [← Token.anyMentionsSelf_iff, unmentioned]
    exact Bool.false_ne_true

/-- What is left of the implementing type is what the generic parameters and conditions say. -/
theorem AcceptedAs.namesSelf_iff (accepted : signature.AcceptedAs method) :
    method.NamesSelf ↔ signature.generics.NamesSelf := by
  have params := accepted.not_namesSelf_param
  have output := accepted.not_namesSelf_output
  rw [← accepted.generics]
  constructor
  · rintro ⟨tokens, listed, names⟩
    simp only [Method.typeTokens, List.mem_append, List.mem_cons, List.mem_map,
      Option.mem_toList, Option.map_eq_some_iff] at listed
    obtain ((rfl | ⟨param, taken, rfl⟩) | ⟨ty, returned, rfl⟩) | ⟨clause, written, rfl⟩ := listed
    · exact .inl names
    · exact absurd names (params param taken)
    · exact absurd names (output ty returned)
    · exact .inr ⟨clause, written, names⟩
  · rintro (names | ⟨clause, written, names⟩)
    · exact ⟨_, by simp [Method.typeTokens], names⟩
    · refine ⟨clause.tokens, List.mem_append_right _ (Option.mem_toList.mpr ?_), names⟩
      exact Option.map_eq_some_iff.mpr ⟨clause, written, rfl⟩

end Signature

/-- A signature that names the implementing type in a parameter or the result becomes no method. -/
theorem Method.ofSignature_of_namesSelf {signature : Signature} (names : signature.NamesSelf) :
    ∃ reason, ofSignature signature = .error reason := by
  cases made : ofSignature signature with
  | error reason => exact ⟨reason, rfl⟩
  | ok method =>
      have accepted := ofSignature_eq_ok_iff.mp made
      obtain ⟨attributes, pattern, ty, listed, names⟩ | ⟨ty, written, names⟩ := names
      · obtain ⟨position, here⟩ := List.mem_iff_getElem?.mp listed
        obtain ⟨param, taken, made⟩ := exists_of_forall₂ (Except.mapM_eq_ok_iff.mp accepted.params)
          (List.mk_mem_zipIdx_iff_getElem?.mpr here)
        obtain ⟨_, _, same, -⟩ := Param.ofInput_eq_ok_iff.mp made
        cases same
        exact absurd names (accepted.not_namesSelf_param param taken)
      · obtain ⟨unit, -⟩ | ⟨_, same, returned, -⟩ := outputOf_eq_ok_iff.mp accepted.output
        · obtain ⟨trailing, rfl⟩ := Ty.isUnit_iff.mp (unit ty written)
          rw [← Token.anyMentionsSelf_iff] at names
          cases names
        · cases written.symm.trans same
          exact absurd names (accepted.not_namesSelf_output ty returned)

/-! ## The methods of a trait -/

namespace TraitMembers

/-- **The implementing type in what is dispatched.** No parameter and no result of a method of a trait
whose members are collected has a type that names the implementing type, at whatever depth, and a
function with such a type makes the collection fail. Generic parameters and conditions are not looked
through: the methods are free of the name altogether exactly if the functions' generic parameters and
conditions are. -/
theorem ofTrait_selfType (interface : String) (decl : TraitDecl) :
    (∀ own, (ofTrait interface decl).outcome = .ok own →
      (∀ method ∈ own.members.flatMap Member.methods,
        (∀ param ∈ method.params, ¬ Token.NamesSelf param.ty.tokens) ∧
          ∀ ty ∈ method.output, ¬ Token.NamesSelf ty.tokens) ∧
        ((∀ method ∈ own.members.flatMap Member.methods, ¬ method.NamesSelf) ↔
          ∀ function ∈ decl.item.functions, ¬ function.signature.generics.NamesSelf)) ∧
    ∀ before attributes signature body after,
      decl.item.entries = before ++ .method attributes signature body :: after →
      signature.NamesSelf →
        ∃ reason,
          Refuses interface decl before (.unsupportedMember interface signature.name reason) := by
  refine ⟨fun own made => ⟨fun method listed => ?_, ?_⟩,
    fun before attributes signature body after declared names => ?_⟩
  · obtain ⟨attributes, signature, body, -, becomes⟩ := ofTrait_methods made method listed
    have accepted := Method.ofSignature_eq_ok_iff.mp becomes
    exact ⟨accepted.not_namesSelf_param, accepted.not_namesSelf_output⟩
  · obtain ⟨parts, accounts⟩ := ofTrait_accounts made
    constructor
    · intro free function declared names
      obtain ⟨method, listed, becomes⟩ := accounts.exists_method declared
      have accepted := Method.ofSignature_eq_ok_iff.mp becomes
      exact free method listed (accepted.namesSelf_iff.mpr names)
    · intro free method listed names
      obtain ⟨function, declared, becomes⟩ := accounts.exists_becomes listed
      have accepted := Method.ofSignature_eq_ok_iff.mp becomes
      exact free function declared (accepted.namesSelf_iff.mp names)
  · obtain ⟨reason, refused⟩ := Method.ofSignature_of_namesSelf names
    refine ⟨reason, refuses_of_entry declared fun members => ?_⟩
    change Member.addMethod interface members attributes signature = _
    rw [Member.addMethod, refused]
    rfl

end TraitMembers

/-- A type with one argument between angle brackets. -/
def Ty.applied (name : String) (argument : Ty) : Ty :=
  .path (.mk false [.mk name (.angle false [.type argument] false)])

/-- The gauge with a function that takes others of its type. -/
def joinableTrait : TraitItem :=
  { gaugeTrait with
    entries := gaugeTrait.entries ++
      [.method [] ⟨false, false, false, none, "join", .none,
        [.receiver ⟨[], some none, false, none⟩,
          .typed [] (.binding "others" [.word "others"]) (.applied "Vec" (.named "Self"))],
        false, none, none⟩ none] }

/-- A trait with one function, whose generic parameter is compared with the implementing type. -/
def comparableTrait : TraitItem :=
  { gaugeTrait with
    name := "IShape"
    entries :=
      [.method [] ⟨false, false, false, none, "same",
        ⟨[.type [] "T" [.trait false false none
          (.mk false [.mk "PartialEq" (.angle false [.type (.named "Self")] false)])] false none],
          false, none⟩,
        [.receiver ⟨[], some none, false, none⟩,
          .typed [] (.binding "other" [.word "other"]) (.named "T")],
        false, none, some (.named "bool")⟩ none] }

namespace TraitMembers

/-- The functions of the gauge, and one that takes others of its type. -/
theorem ofTrait_selfType_gauge :
    (ofTrait "IGauge" ⟨.root, gaugeTrait⟩).outcome = .ok gaugeMembers ∧
      (∀ method ∈ gaugeMembers.members.flatMap Member.methods, ¬ method.NamesSelf) ∧
      ∃ reason, (ofTrait "IGauge" ⟨.root, joinableTrait⟩).outcome =
        .error (.unsupportedMember "IGauge" "join" reason) := by
  have collected : (ofTrait "IGauge" ⟨.root, gaugeTrait⟩).outcome = .ok gaugeMembers := rfl
  obtain ⟨-, free⟩ := (ofTrait_selfType "IGauge" ⟨.root, gaugeTrait⟩).1 _ collected
  have plain : ∀ function ∈ gaugeTrait.functions, ¬ function.signature.generics.NamesSelf := by
    simp [gaugeTrait, TraitItem.functions, TraitEntry.functionsFrom, Generics.NamesSelf,
      Generics.none, Generics.tokens, ← Token.anyMentionsSelf_iff, Token.anyMentionsSelf]
  obtain ⟨reason, first, failed, only⟩ :=
    (ofTrait_selfType "IGauge" ⟨.root, joinableTrait⟩).2 gaugeTrait.entries [] _ none [] rfl
      (.inl ⟨[], _, _, List.mem_cons_self, Token.anyMentionsSelf_iff.mp (by decide)⟩)
  refine ⟨collected, free.mpr plain, reason, failed.trans (congrArg _ ?_)⟩
  exact only rfl _ (ofTrait_eq_ok_iff.mp collected).2.1

/-- A bound that names the implementing type is accepted and emitted. -/
theorem ofTrait_selfType_comparable :
    ∃ method, (ofTrait "IShape" ⟨.root, comparableTrait⟩).outcome =
        .ok ⟨"IShape", .root, [.method method]⟩ ∧
      method.NamesSelf ∧
      method.headText = "fn same<T: PartialEq<Self>>(&self, other: T) -> bool" := by
  refine ⟨_, rfl, ⟨_, List.mem_cons_self, Token.anyMentionsSelf_iff.mp (by decide)⟩, by decide⟩

end TraitMembers

end VariantMerge
