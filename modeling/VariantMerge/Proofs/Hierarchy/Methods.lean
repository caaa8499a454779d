import VariantMerge.Proofs.Generation.Attribution

/-!
# Where methods come from

Whatever is dispatched for a trait comes from its declaration: each method of its members, accessors
of properties included, is what one of its entries became (`TraitMembers.ofTrait_methods`), and has
the generic parameters, the types and the conditions of that entry's signature
(`Method.ofSignature_typeTokens`). Which signatures are accepted, and as what, is
`Signature.AcceptedAs`; an entry that is not makes the collection fail
(`TraitMembers.refuses_of_entry`).
-/

namespace VariantMerge

/-! ## The types of a method -/

/-- The parts of a signature with types in them: the generic parameters, the types of what comes
after the receiver, the result, and the conditions. -/
def Signature.typeTokens (signature : Signature) : List (List Token) :=
  signature.generics.tokens ::
    (signature.inputs.drop 1).filterMap (fun input =>
      match input with
      | .receiver _ => none
      | .typed _ _ ty => some ty.tokens) ++
    (signature.output.map Ty.tokens).toList ++
    (signature.generics.conditions.map WhereClause.tokens).toList

/-- The parts of a method's head with types in them. -/
def Method.typeTokens (method : Method) : List (List Token) :=
  method.generics.tokens :: method.params.map (·.ty.tokens) ++
    (method.output.map Ty.tokens).toList ++
    (method.generics.conditions.map WhereClause.tokens).toList

/-- What an input has to be to become this parameter. -/
theorem Param.ofInput_eq_ok_iff {input : FnInput} {position : Nat} {param : Param} :
    ofInput input position = .ok param ↔
      ∃ attributes pattern, input = .typed attributes pattern param.ty ∧
        Token.anyMentionsSelf param.ty.tokens = false ∧ param.name = nameFor pattern position ∧
        modeFor param.name (Attribute.anyNamed attributes outMark) param.ty = .ok param.mode := by
  obtain ⟨name, ty, mode⟩ := param
  cases input with
  | receiver self => simp [ofInput]
  | typed attributes pattern written =>
      rw [ofInput]
      cases mentioned : Token.anyMentionsSelf written.tokens with
      | true =>
          simp only [FnInput.typed.injEq, if_true, reduceCtorEq, false_iff]
          rintro ⟨_, _, ⟨-, -, rfl⟩, unmentioned, -⟩
          exact Bool.noConfusion (mentioned.symm.trans unmentioned)
      | false =>
          simp only [Bool.false_eq_true, if_false, Except.map_eq_ok_iff, Param.mk.injEq,
            FnInput.typed.injEq]
          constructor
          · rintro ⟨_, passed, rfl, rfl, rfl⟩
            exact ⟨attributes, pattern, ⟨rfl, rfl, rfl⟩, mentioned, rfl, passed⟩
          · rintro ⟨_, _, ⟨rfl, rfl, rfl⟩, -, rfl, passed⟩
            exact ⟨mode, passed, rfl, rfl, rfl⟩

/-- A signature is accepted as this method. -/
structure Signature.AcceptedAs (signature : Signature) (method : Method) : Prop where
  isAsync : signature.isAsync = false
  variadic : signature.variadic = none
  abi : signature.abi = none
  name : method.name = signature.name
  receiver : Method.receiverOf signature.inputs = .ok (method.receiver, method.receiverText)
  params : (signature.inputs.drop 1).zipIdx.mapM (fun (input, position) =>
    Param.ofInput input position) = .ok method.params
  output : Method.outputOf signature.output = .ok method.output
  generics : method.generics = signature.generics
  isUnsafe : method.isUnsafe = signature.isUnsafe

theorem Ty.isUnit_iff {ty : Ty} : ty.isUnit = true ↔ ∃ trailing, ty = .tuple [] trailing := by
  cases ty with
  | tuple elements trailing => cases elements <;> simp [isUnit]
  | _ => simp [isUnit]

namespace Method

/-- A result is given up if it is the unit, and otherwise has to mention no implementing type and
to borrow nothing. -/
theorem outputOf_eq_ok_iff {output result : Option Ty} :
    outputOf output = .ok result ↔
      ((∀ ty ∈ output, ty.isUnit = true) ∧ result = none) ∨
        ∃ ty, output = some ty ∧ result = some ty ∧ ty.isUnit = false ∧
          Token.anyMentionsSelf ty.tokens = false ∧ Token.anyBorrows ty.tokens = false := by
  constructor
  · intro made
    cases output with
    | none =>
        cases made
        exact .inl ⟨fun _ absent => (nomatch absent), rfl⟩
    | some ty =>
        rw [outputOf] at made
        split at made
        next unit =>
          cases made
          exact .inl ⟨fun _ same => Option.some.inj same ▸ unit, rfl⟩
        next valued =>
          split at made
          · cases made
          next unmentioned =>
            split at made
            · cases made
            next unborrowed =>
              cases made
              exact .inr ⟨ty, rfl, rfl, Bool.eq_false_iff.mpr valued,
                Bool.eq_false_iff.mpr unmentioned, Bool.eq_false_iff.mpr unborrowed⟩
  · rintro (⟨unit, rfl⟩ | ⟨ty, rfl, rfl, valued, unmentioned, unborrowed⟩)
    · cases output with
      | none => rfl
      | some ty => rw [outputOf, if_pos (unit ty rfl)]
    · simp [outputOf, valued, unmentioned, unborrowed]

/-- **What is accepted.** -/
theorem ofSignature_eq_ok_iff {signature : Signature} {method : Method} :
    ofSignature signature = .ok method ↔ signature.AcceptedAs method := by
  constructor
  · intro made
    unfold ofSignature at made
    cases async : signature.isAsync
    case true =>
      simp only [async] at made
      cases made
    case false =>
      cases variadic : signature.variadic
      case some tokens =>
        simp only [async, variadic] at made
        cases made
      case none =>
        cases abi : signature.abi
        case some abi =>
          simp only [async, variadic, abi] at made
          cases made
        case none =>
          simp only [async, variadic, abi] at made
          obtain ⟨⟨receiver, receiverText⟩, taken, made⟩ := Except.bind_eq_ok_iff.mp made
          obtain ⟨params, passed, made⟩ := Except.bind_eq_ok_iff.mp made
          obtain ⟨output, returned, made⟩ := Except.bind_eq_ok_iff.mp made
          cases made
          exact ⟨async, variadic, abi, rfl, taken, passed, returned, rfl, rfl⟩
  · intro accepted
    obtain ⟨name, receiver, receiverText, params, output, generics, isUnsafe⟩ := method
    obtain ⟨async, variadic, abi, rfl, taken, passed, returned, rfl, rfl⟩ := accepted
    simp only [ofSignature, async, variadic, abi, taken, passed, returned]
    rfl

/-- **Types are copied.** Each part of a method's head with types in it stands in the signature. -/
theorem ofSignature_typeTokens {signature : Signature} {method : Method}
    (made : ofSignature signature = .ok method) :
    method.typeTokens ⊆ signature.typeTokens := by
  have accepted := ofSignature_eq_ok_iff.mp made
  intro tokens written
  simp only [typeTokens, accepted.generics, List.mem_append, List.mem_cons,
    Option.mem_toList] at written
  simp only [Signature.typeTokens, List.mem_append, List.mem_cons, Option.mem_toList]
  obtain (((rfl | taken) | returned) | conditions) := written
  · exact .inl (.inl (.inl rfl))
  · refine .inl (.inl (.inr ?_))
    obtain ⟨param, listed, rfl⟩ := List.mem_map.mp taken
    have related := (Except.mapM_eq_ok_iff.mp accepted.params).flip
    obtain ⟨⟨input, position⟩, given, made⟩ := exists_of_forall₂ related listed
    obtain ⟨attributes, pattern, rfl, -⟩ := Param.ofInput_eq_ok_iff.mp made
    exact List.mem_filterMap.mpr ⟨_, List.fst_mem_of_mem_zipIdx given, rfl⟩
  · refine .inl (.inr ?_)
    obtain ⟨ty, returns, rfl⟩ := Option.map_eq_some_iff.mp returned
    obtain ⟨-, absent⟩ | ⟨_, written, same, -⟩ := outputOf_eq_ok_iff.mp accepted.output
    · cases returns.symm.trans absent
    · cases returns.symm.trans same
      rw [written, Option.map_some]
  · exact .inr conditions

end Method

/-! ## The methods of a trait -/

namespace Member

variable {source : Method → Prop}

/-- All methods of the members are of this kind. -/
def Provides (source : Method → Prop) (members : List Member) : Prop :=
  ∀ method ∈ members.flatMap methods, source method

theorem provides_cons_iff {member : Member} {rest : List Member} :
    Provides source (member :: rest) ↔
      (∀ method ∈ member.methods, source method) ∧ Provides source rest := by
  simp only [Provides, List.flatMap_cons, List.mem_append, or_imp, forall_and]

theorem updateProperty_provides {name : String} {ty : Ty}
    {change : Property → Except Failure Property}
    (changes : ∀ property after, (∀ method ∈ property.accessors, source method) →
      change property = .ok after → ∀ method ∈ after.accessors, source method)
    {members after : List Member} (before : Provides source members)
    (updated : updateProperty name ty change members = .ok after) : Provides source after := by
  induction members generalizing after with
  | nil =>
      obtain ⟨property, changed, rfl⟩ := Except.map_eq_ok_iff.mp updated
      refine provides_cons_iff.mpr ⟨?_, before⟩
      exact changes _ property (fun _ absent => absurd absent List.not_mem_nil) changed
  | cons member rest ih =>
      obtain ⟨here, others⟩ := provides_cons_iff.mp before
      cases member with
      | method m =>
          obtain ⟨later, changed, rfl⟩ := Except.map_eq_ok_iff.mp updated
          exact provides_cons_iff.mpr ⟨here, ih others changed⟩
      | property existing =>
          rw [updateProperty] at updated
          split at updated
          · obtain ⟨property, changed, rfl⟩ := Except.map_eq_ok_iff.mp updated
            exact provides_cons_iff.mpr ⟨changes existing property here changed, others⟩
          · obtain ⟨later, changed, rfl⟩ := Except.map_eq_ok_iff.mp updated
            exact provides_cons_iff.mpr ⟨here, ih others changed⟩

theorem addAccessor_provides {interface : String} {members after : List Member} {method : Method}
    (before : Provides source members) (listed : source method)
    (added : addAccessor interface members method = .ok after) : Provides source after := by
  unfold addAccessor at added
  split at added
  next name ty _ =>
    refine updateProperty_provides (fun property changed accessors made => ?_) before added
    have made := Except.mapError_eq_ok_iff.mp made
    unfold Property.addGetter at made
    split at made
    · cases made
    · obtain ⟨-, -, rfl⟩ := Except.map_eq_ok_iff.mp made
      intro other member
      obtain here | there := List.mem_append.mp member
      · exact List.mem_singleton.mp here ▸ listed
      · exact accessors other (List.mem_append_right _ there)
  next => cases added
  next name ty _ =>
    refine updateProperty_provides (fun property changed accessors made => ?_) before added
    have made := Except.mapError_eq_ok_iff.mp made
    unfold Property.addSetter at made
    split at made
    · cases made
    · obtain ⟨-, -, rfl⟩ := Except.map_eq_ok_iff.mp made
      intro other member
      obtain there | here := List.mem_append.mp member
      · exact accessors other (List.mem_append_left _ there)
      · exact List.mem_singleton.mp here ▸ listed
  next => cases added

theorem addMethod_provides {interface : String} {members after : List Member}
    {attributes : List Attribute} {signature : Signature} (before : Provides source members)
    (listed : ∀ method, Method.ofSignature signature = .ok method → source method)
    (added : addMethod interface members attributes signature = .ok after) :
    Provides source after := by
  unfold addMethod at added
  obtain ⟨method, made, added⟩ := Except.bind_eq_ok_iff.mp added
  have here := listed method (Except.mapError_eq_ok_iff.mp made)
  split at added
  · exact addAccessor_provides before here added
  · cases added
    intro other member
    rw [List.flatMap_append, List.mem_append] at member
    obtain there | new := member
    · exact before other there
    · rw [List.flatMap_singleton, methods, List.mem_singleton] at new
      exact new ▸ here

end Member

namespace TraitMembers

/-- The members that entries add up to. -/
def ofEntries (interface : String) (entries : List TraitEntry) : Except Failure (List Member) :=
  entries.foldlM (fun members entry => (addEntry interface members entry).outcome) []

theorem ofTrait_outcome (interface : String) (decl : TraitDecl) :
    (ofTrait interface decl).outcome =
      if decl.item.generics.params.isEmpty then
        (ofEntries interface decl.item.entries).map fun members => ⟨decl.name, decl.module, members⟩
      else .error (.unsupportedInterface interface (.genericTrait decl.name)) := by
  unfold ofTrait
  cases decl.item.generics.params.isEmpty with
  | true =>
      simp only [Bool.not_true, Bool.false_eq_true, if_false, if_true, Pass.outcome_bind,
        Pass.outcome_tell, Pass.outcome_pure, Pass.outcome_foldlM]
      rfl
  | false => rfl

theorem ofTrait_eq_ok_iff {interface : String} {decl : TraitDecl} {own : TraitMembers} :
    (ofTrait interface decl).outcome = .ok own ↔
      decl.item.generics.params = [] ∧ ofEntries interface decl.item.entries = .ok own.members ∧
        own.name = decl.name ∧ own.module = decl.module := by
  obtain ⟨name, module, members⟩ := own
  rw [ofTrait_outcome, ← List.isEmpty_iff]
  cases decl.item.generics.params.isEmpty with
  | true =>
      simp only [if_true, Except.map_eq_ok_iff, TraitMembers.mk.injEq, true_and]
      constructor
      · rintro ⟨_, collected, rfl, rfl, rfl⟩
        exact ⟨collected, rfl, rfl⟩
      · rintro ⟨collected, rfl, rfl⟩
        exact ⟨members, collected, rfl, rfl, rfl⟩
  | false => simp

/-- **Where methods come from.** Each is what the signature of one of the trait's entries became. -/
theorem ofTrait_methods {interface : String} {decl : TraitDecl} {own : TraitMembers}
    (made : (ofTrait interface decl).outcome = .ok own) :
    ∀ method ∈ own.members.flatMap Member.methods, ∃ attributes signature body,
      TraitEntry.method attributes signature body ∈ decl.item.entries ∧
        Method.ofSignature signature = .ok method := by
  have start : Member.Provides (fun method => ∃ attributes signature body,
      TraitEntry.method attributes signature body ∈ decl.item.entries ∧
        Method.ofSignature signature = .ok method) [] :=
    fun _ absent => absurd absent List.not_mem_nil
  refine Except.foldlM_keeps (fun entry listed state after kept added => ?_) start
    (ofTrait_eq_ok_iff.mp made).2.1
  cases entry with
  | method attributes signature body =>
      refine Member.addMethod_provides kept (fun method made => ?_) added
      exact ⟨attributes, signature, body, listed, made⟩
  | assocType name tokens => cases added
  | assocConst name tokens => cases added
  | other tokens =>
      cases added
      exact kept

/-! ## Entries that are refused -/

/-- The members of a trait are not collected. The failure is this one unless the trait has generic
parameters or one of the entries before fails. -/
def Refuses (interface : String) (decl : TraitDecl) (before : List TraitEntry)
    (failure : Failure) : Prop :=
  ∃ first, (ofTrait interface decl).outcome = .error first ∧
    (decl.item.generics.params = [] → ∀ members, ofEntries interface before = .ok members →
      first = failure)

/-- An entry that cannot be added to any members. -/
theorem refuses_of_entry {interface : String} {decl : TraitDecl} {before after : List TraitEntry}
    {entry : TraitEntry} {failure : Failure}
    (declared : decl.item.entries = before ++ entry :: after)
    (fails : ∀ members, (addEntry interface members entry).outcome = .error failure) :
    Refuses interface decl before failure := by
  have stops : ofEntries interface decl.item.entries =
      (ofEntries interface before).bind fun _ => .error failure := by
    simp only [ofEntries, declared, List.foldlM_append, List.foldlM_cons, fails]
    rfl
  unfold Refuses
  rw [ofTrait_outcome, stops]
  cases plain : decl.item.generics.params with
  | cons param params =>
      exact ⟨_, if_neg Bool.false_ne_true, fun none_ => absurd none_ (List.cons_ne_nil _ _)⟩
  | nil =>
      cases ofEntries interface before with
      | error first => exact ⟨first, rfl, fun _ _ read => nomatch read⟩
      | ok members => exact ⟨failure, rfl, fun _ _ _ => rfl⟩

end TraitMembers

end VariantMerge
