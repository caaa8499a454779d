import VariantMerge.Proofs.Emit.Trees
import VariantMerge.Proofs.Hierarchy.Methods
import VariantMerge.Proofs.Hierarchy.Reachable

/-!
# The functions of a trait

A trait whose members are collected has neither lost nor doubled a function. `Accounts` says so: each
member is made of some of the functions, a method of one and a property of those that became its
accessors, and together the members are made of each function once. Adding a function keeps this,
whether it becomes a method, starts a property or completes one (`Member.addMethod_accounts`), so it
holds of every trait (`TraitMembers.ofTrait_accounts`), and what is emitted for the trait declares its
functions and no other.
-/

namespace VariantMerge

/-- A function that a trait declares. -/
structure TraitFunction where
  attributes : List Attribute
  signature : Signature
  /-- How many functions the trait declares before it. -/
  position : Nat

namespace TraitFunction

/-- Whether the function is marked as an accessor. -/
def isMarked (function : TraitFunction) : Bool :=
  Attribute.anyNamed function.attributes Property.mark

/-- The method has the function's signature. -/
def Becomes (function : TraitFunction) (method : Method) : Prop :=
  Method.ofSignature function.signature = .ok method

/-- Some function of the one list comes before all of the other one. -/
def Precede (early late : List TraitFunction) : Prop :=
  ∃ first ∈ early, ∀ later ∈ late, first.position < later.position

/-- More functions may precede where none of them is lost. -/
theorem Precede.grow_left {early more late : List TraitFunction} (precede : Precede early late)
    (grows : early ⊆ more) : Precede more late := by
  obtain ⟨first, inside, leads⟩ := precede
  exact ⟨first, grows inside, leads⟩

/-- A function that is later than all before it may come at the end. -/
theorem Precede.grow_right {early late more : List TraitFunction} {function : TraitFunction}
    (precede : Precede early late) (grows : more ⊆ function :: late)
    (latest : ∀ earlier ∈ early, earlier.position < function.position) : Precede early more := by
  obtain ⟨first, inside, leads⟩ := precede
  refine ⟨first, inside, fun later listed => ?_⟩
  obtain rfl | old := List.mem_cons.mp (grows listed)
  · exact latest first inside
  · exact leads later old

end TraitFunction

/-- The functions among the entries of a trait, with `count` functions before them. -/
def TraitEntry.functionsFrom (count : Nat) : List TraitEntry → List TraitFunction
  | [] => []
  | .method attributes signature _ :: rest =>
    ⟨attributes, signature, count⟩ :: functionsFrom (count + 1) rest
  | _ :: rest => functionsFrom count rest

/-- The functions that a trait declares, in order. -/
def TraitItem.functions (item : TraitItem) : List TraitFunction :=
  TraitEntry.functionsFrom 0 item.entries

/-- The getter has the name of the property, and the setter has it after `set_`. -/
def Property.NamesAccessors (property : Property) : Prop :=
  (∀ getter ∈ property.getter, getter.name = property.name) ∧
    ∀ setter ∈ property.setter, Property.setterName? setter.name = some property.name

/-- The property that a member is. -/
def Member.property? : Member → Option Property
  | .method _ => none
  | .property p => some p

/-- The names of the properties among some members. -/
def Member.propertyNames (members : List Member) : List String :=
  (members.filterMap property?).map Property.name

namespace Member

/-- A method is no property. -/
@[simp] theorem propertyNames_method (m : Method) : propertyNames [.method m] = [] := rfl

/-- A property has its name. -/
@[simp] theorem propertyNames_property (p : Property) :
    propertyNames [.property p] = [p.name] := rfl

/-- The properties of members are those of both parts. -/
theorem propertyNames_append (members others : List Member) :
    propertyNames (members ++ others) = propertyNames members ++ propertyNames others := by
  rw [propertyNames, List.filterMap_append, List.map_append, propertyNames, propertyNames]

/-- The properties of members are those of the first and of the others. -/
theorem propertyNames_cons (member : Member) (rest : List Member) :
    propertyNames (member :: rest) = propertyNames [member] ++ propertyNames rest :=
  propertyNames_append [member] rest

end Member

/-- What a member is made of: a method of one function without the mark of an accessor, and a property
of at least one with it, the getter first. -/
inductive Member.IsMadeOf : Member → List TraitFunction → Prop
  | method {method : Method} {function : TraitFunction} (unmarked : function.isMarked = false)
      (becomes : function.Becomes method) : IsMadeOf (.method method) [function]
  | property {property : Property} {functions : List TraitFunction} (nonempty : functions ≠ [])
      (named : property.NamesAccessors)
      (become : List.Forall₂ (fun accessor function =>
        function.isMarked = true ∧ function.Becomes accessor) property.accessors functions) :
      IsMadeOf (.property property) functions

/-- Members account for functions: each is made of one of the parts, and together the parts have each
function once. The members are in the order of the first functions in their parts, and no two
properties share a name. -/
structure Accounts (members : List Member) (functions : List TraitFunction)
    (parts : List (List TraitFunction)) : Prop where
  made : List.Forall₂ Member.IsMadeOf members parts
  complete : parts.flatten.Perm functions
  ordered : parts.Pairwise TraitFunction.Precede
  distinct : (Member.propertyNames members).Nodup

/-- Whether a piece of code is a scope. -/
def Code.isScope : Code → Bool
  | .scope .. => true
  | _ => false

/-- A scope that holds just scopes with these heads, in order, with an empty line between each two of
them. -/
def Code.Declares (block : Code) (header : String) (heads : List String) : Prop :=
  ∃ scopes, List.Forall₂ (fun head inner => ∃ body, inner = scope head body) heads scopes ∧
    block = .scope header (spaced scopes)

/-! ## Adding an accessor -/

/-- A property gains an accessor that it did not have. -/
inductive Property.Gains (method : Method) : Property → Property → Prop
  | getter {name : String} {ty : Ty} {setter : Option Method} (named : method.name = name) :
      Gains method ⟨name, ty, none, setter⟩ ⟨name, ty, some method, setter⟩
  | setter {name : String} {ty : Ty} {getter : Option Method}
      (named : Property.setterName? method.name = some name) :
      Gains method ⟨name, ty, getter, none⟩ ⟨name, ty, getter, some method⟩

namespace Property

/-- A getter is added where there is none yet and the type is the same. -/
theorem addGetter_eq_ok_iff {property grown : Property} {ty : Ty} {method : Method} :
    property.addGetter ty method = .ok grown ↔
      property.getter = none ∧ property.ty.key = ty.key ∧
        { property with getter := some method } = grown := by
  rw [addGetter, checkType]
  cases property.getter <;> simp [Except.map_eq_ok_iff]

/-- A setter is added if there is none and the types agree. -/
theorem addSetter_eq_ok_iff {property grown : Property} {ty : Ty} {method : Method} :
    property.addSetter ty method = .ok grown ↔
      property.setter = none ∧ property.ty.key = ty.key ∧
        { property with setter := some method } = grown := by
  rw [addSetter, checkType]
  cases property.setter <;> simp [Except.map_eq_ok_iff]

/-- A property gains its getter. -/
theorem addGetter_gains {property grown : Property} {ty : Ty} {method : Method}
    (named : method.name = property.name) (added : property.addGetter ty method = .ok grown) :
    Gains method property grown := by
  obtain ⟨absent, -, rfl⟩ := addGetter_eq_ok_iff.mp added
  obtain ⟨name, ty, getter, setter⟩ := property
  cases absent
  exact .getter named

/-- A property gains its setter. -/
theorem addSetter_gains {property grown : Property} {ty : Ty} {method : Method}
    (named : setterName? method.name = some property.name)
    (added : property.addSetter ty method = .ok grown) : Gains method property grown := by
  obtain ⟨absent, -, rfl⟩ := addSetter_eq_ok_iff.mp added
  obtain ⟨name, ty, getter, setter⟩ := property
  cases absent
  exact .setter named

/-- A property keeps its name when it gains an accessor. -/
theorem Gains.name_eq {method : Method} {property grown : Property}
    (gains : Gains method property grown) : grown.name = property.name := by
  cases gains <;> rfl

/-- The property is made of one more function. -/
theorem Gains.isMadeOf {method : Method} {property grown : Property} {function : TraitFunction}
    {functions : List TraitFunction} (gains : Gains method property grown)
    (marked : function.isMarked = true) (becomes : function.Becomes method)
    (named : property.NamesAccessors)
    (become : List.Forall₂ (fun accessor function =>
      function.isMarked = true ∧ function.Becomes accessor) property.accessors functions) :
    ∃ more, Member.IsMadeOf (.property grown) more ∧ more.Perm (function :: functions) := by
  cases gains with
  | getter called =>
      refine ⟨function :: functions, .property (List.cons_ne_nil _ _) ⟨?_, named.2⟩ ?_, .rfl⟩
      · intro getter same
        cases same
        exact called
      · exact .cons ⟨marked, becomes⟩ become
  | @setter _ _ getter called =>
      refine ⟨functions ++ [function], .property (by simp) ⟨named.1, ?_⟩ ?_,
        List.perm_append_singleton function functions⟩
      · intro setter same
        cases same
        exact called
      · have before : List.Forall₂ (fun accessor function => function.isMarked = true ∧
            function.Becomes accessor) getter.toList functions := by
          simpa [accessors] using become
        exact List.rel_append before (.cons ⟨marked, becomes⟩ .nil)

/-- What an accessor takes, returns and is called. -/
theorem accessor?_eq_some_iff {method : Method} {accessor : Accessor} :
    accessor? method = some accessor ↔
      match accessor with
      | .getter name output =>
        method.name = name ∧ method.params = [] ∧ method.output = output ∧ output.isSome
      | .setter name ty =>
        setterName? method.name = some name ∧ (∃ param, method.params = [param] ∧ param.ty = ty) ∧
          method.output = none := by
  obtain ⟨name, receiver, receiverText, params, output, generics, isUnsafe⟩ := method
  unfold accessor?
  -- Nothing or one thing is taken, or more; something is returned or not.
  obtain _ | ⟨param, _ | ⟨second, rest⟩⟩ := params
  · cases output <;> cases accessor <;> grind [Method.returnsValue]
  · cases output <;> cases setterName? name <;> cases accessor <;>
      simp [Method.returnsValue, and_comm]
  · cases accessor <;> simp

end Property

namespace Member

/-- Either the one property of the name changes in its place, or there was none and one is added. -/
theorem updateProperty_eq_ok {name : String} {ty : Ty} {change : Property → Except ε Property}
    {members after : List Member} (updated : updateProperty name ty change members = .ok after) :
    (∃ before property changed rest, members = before ++ .property property :: rest ∧
        property.name = name ∧ change property = .ok changed ∧
        after = before ++ .property changed :: rest) ∨
      ∃ added, name ∉ propertyNames members ∧ change ⟨name, ty, none, none⟩ = .ok added ∧
        after = members ++ [.property added] := by
  induction members generalizing after with
  | nil =>
      obtain ⟨added, changed, rfl⟩ := Except.map_eq_ok_iff.mp updated
      exact .inr ⟨added, List.not_mem_nil, changed, rfl⟩
  | cons member rest ih =>
      -- A member that is not the property of the name stays in front.
      have passes {later : List Member} (keeps : updateProperty name ty change rest = .ok later)
          (other : name ∉ propertyNames [member]) :
          (∃ before property changed behind, member :: rest = before ++ .property property :: behind ∧
              property.name = name ∧ change property = .ok changed ∧
              member :: later = before ++ .property changed :: behind) ∨
            ∃ added, name ∉ propertyNames (member :: rest) ∧
              change ⟨name, ty, none, none⟩ = .ok added ∧
              member :: later = member :: rest ++ [.property added] := by
        obtain ⟨before, property, changed, behind, rfl, named, turned, rfl⟩ |
          ⟨added, absent, turned, rfl⟩ := ih keeps
        · exact .inl ⟨member :: before, property, changed, behind, rfl, named, turned, rfl⟩
        · refine .inr ⟨added, fun listed => ?_, turned, rfl⟩
          rw [propertyNames_cons, List.mem_append] at listed
          exact listed.elim other absent
      cases member with
      | method m =>
          obtain ⟨later, keeps, rfl⟩ := Except.map_eq_ok_iff.mp updated
          exact passes keeps (by simp)
      | property existing =>
          rw [updateProperty] at updated
          by_cases named : existing.name = name
          · rw [if_pos (beq_iff_eq.mpr named)] at updated
            obtain ⟨changed, turned, rfl⟩ := Except.map_eq_ok_iff.mp updated
            exact .inl ⟨[], existing, changed, rest, rfl, named, turned, rfl⟩
          · rw [if_neg fun same => named (beq_iff_eq.mp same)] at updated
            obtain ⟨later, keeps, rfl⟩ := Except.map_eq_ok_iff.mp updated
            exact passes keeps (by simpa using Ne.symm named)

/-- A change that makes a property gain an accessor does so in its place, or at the end. -/
theorem updateProperty_gains {interface name : String} {ty : Ty} {method : Method}
    {change : Property → Except Reason Property} {members after : List Member}
    (gains : ∀ property grown, property.name = name → change property = .ok grown →
      Property.Gains method property grown)
    (updated : updateProperty name ty (fun property =>
      (change property).mapError (Failure.unsupportedMember interface name)) members = .ok after) :
    (∃ before property grown rest, members = before ++ .property property :: rest ∧
        property.Gains method grown ∧ after = before ++ .property grown :: rest) ∨
      ∃ name ty grown, name ∉ propertyNames members ∧
        Property.Gains method ⟨name, ty, none, none⟩ grown ∧
        after = members ++ [.property grown] := by
  obtain ⟨before, property, grown, rest, same, named, gained, after⟩ | ⟨grown, absent, gained, after⟩ :=
    updateProperty_eq_ok updated
  · exact .inl ⟨before, property, grown, rest, same,
      gains property grown named (Except.mapError_eq_ok_iff.mp gained), after⟩
  · exact .inr ⟨name, ty, grown, absent,
      gains _ grown rfl (Except.mapError_eq_ok_iff.mp gained), after⟩

/-- An accessor is gained by a property in its place, or by a new one at the end. -/
theorem addAccessor_eq_ok {interface : String} {members after : List Member} {method : Method}
    (added : addAccessor interface members method = .ok after) :
    (∃ before property grown rest, members = before ++ .property property :: rest ∧
        property.Gains method grown ∧ after = before ++ .property grown :: rest) ∨
      ∃ name ty grown, name ∉ propertyNames members ∧
        Property.Gains method ⟨name, ty, none, none⟩ grown ∧
        after = members ++ [.property grown] := by
  unfold addAccessor at added
  split at added
  next name ty shaped =>
    obtain ⟨called, -⟩ := Property.accessor?_eq_some_iff.mp shaped
    exact updateProperty_gains (fun property grown named gained =>
      Property.addGetter_gains (called.trans named.symm) gained) added
  next => cases added
  next name ty shaped =>
    obtain ⟨called, -⟩ := Property.accessor?_eq_some_iff.mp shaped
    exact updateProperty_gains (fun property grown named gained =>
      Property.addSetter_gains (called.trans (congrArg some named.symm)) gained) added
  next => cases added

/-- Every member is made of some function. -/
theorem IsMadeOf.ne_nil {member : Member} {functions : List TraitFunction}
    (made : member.IsMadeOf functions) : functions ≠ [] := by
  cases made with
  | method => exact List.cons_ne_nil _ _
  | property nonempty => exact nonempty

/-- The methods of a member are what its functions became, in order. -/
theorem IsMadeOf.becomes {member : Member} {functions : List TraitFunction}
    (made : member.IsMadeOf functions) :
    List.Forall₂ (fun method function => function.Becomes method) member.methods functions := by
  cases made with
  | method _ becomes => exact .cons becomes .nil
  | property _ _ become => exact become.imp fun _ _ made => made.2

end Member

/-! ## Accounts -/

namespace Accounts

variable {members : List Member} {functions : List TraitFunction}
  {parts : List (List TraitFunction)} {function : TraitFunction}

/-- A new member at the end, which is made of a new function. -/
theorem concat (accounts : Accounts members functions parts) {member : Member}
    (made : member.IsMadeOf [function])
    (fresh : ∀ name ∈ Member.propertyNames [member], name ∉ Member.propertyNames members)
    (latest : ∀ earlier ∈ functions, earlier.position < function.position) :
    Accounts (members ++ [member]) (functions ++ [function]) (parts ++ [[function]]) where
  made := List.rel_append accounts.made (.cons made .nil)
  complete := by
    rw [List.flatten_append, List.flatten_singleton]
    exact accounts.complete.append_right [function]
  ordered := by
    refine List.pairwise_append.mpr ⟨accounts.ordered, List.pairwise_singleton _ _, ?_⟩
    intro part listed last is
    rw [List.mem_singleton.mp is]
    obtain ⟨member, -, of_⟩ := exists_of_forall₂ accounts.made.flip listed
    obtain ⟨first, inside⟩ := List.exists_mem_of_ne_nil part of_.ne_nil
    refine ⟨first, inside, fun later here => ?_⟩
    rw [List.mem_singleton.mp here]
    exact latest first (accounts.complete.subset (List.mem_flatten_of_mem listed inside))
  distinct := by
    rw [Member.propertyNames_append]
    refine List.Nodup.append accounts.distinct ?_ fun name earlier new => fresh name new earlier
    cases member <;> simp

open scoped List in
/-- A property in the middle that is made of one more function. -/
theorem grow {before rest : List Member} {property grown : Property} {method : Method}
    (accounts : Accounts (before ++ .property property :: rest) functions parts)
    (gains : property.Gains method grown) (marked : function.isMarked = true)
    (becomes : function.Becomes method)
    (latest : ∀ earlier ∈ functions, earlier.position < function.position) :
    ∃ parts, Accounts (before ++ .property grown :: rest) (functions ++ [function]) parts := by
  obtain ⟨made, complete, ordered, distinct⟩ := accounts
  obtain ⟨first, last, early, later, rfl⟩ : ∃ first last,
      List.Forall₂ Member.IsMadeOf before first ∧
        List.Forall₂ Member.IsMadeOf (.property property :: rest) last ∧ parts = first ++ last := by
    refine ⟨parts.take before.length, parts.drop before.length, ?_, ?_,
      (List.take_append_drop _ parts).symm⟩
    · exact (List.forall₂_take_append parts before _ made.flip).flip
    · exact (List.forall₂_drop_append parts before _ made.flip).flip
  obtain ⟨part, behind, of_, late, rfl⟩ := List.forall₂_cons_left_iff.mp later
  cases of_ with
  | property nonempty named become =>
      obtain ⟨more, madeOf, added⟩ := gains.isMadeOf marked becomes named become
      refine ⟨first ++ more :: behind, List.rel_append early (.cons madeOf late), ?_, ?_, ?_⟩
      · calc (first ++ more :: behind).flatten
          _ = first.flatten ++ more ++ behind.flatten := by simp
          _ ~ first.flatten ++ (function :: part) ++ behind.flatten :=
            (added.append_left _).append_right _
          _ ~ function :: (first.flatten ++ part ++ behind.flatten) := by
            rw [List.append_assoc, List.append_assoc]
            exact List.perm_middle
          _ ~ function :: functions := by simpa using complete
          _ ~ functions ++ [function] := (List.perm_append_singleton function functions).symm
      · obtain ⟨firsts, lasts, across⟩ := List.pairwise_append.mp ordered
        obtain ⟨ahead, behinds⟩ := List.pairwise_cons.mp lasts
        refine List.pairwise_append.mpr ⟨firsts, List.pairwise_cons.mpr ⟨?_, behinds⟩, ?_⟩
        · intro other listed
          have contains : part ⊆ more := fun _ inside =>
            added.symm.subset (List.mem_cons_of_mem _ inside)
          exact (ahead other listed).grow_left contains
        · intro earlier listed other inside
          obtain rfl | there := List.mem_cons.mp inside
          · refine (across earlier listed part List.mem_cons_self).grow_right added.subset ?_
            intro leader leading
            refine latest leader (complete.subset ?_)
            exact List.mem_flatten_of_mem (List.mem_append_left _ listed) leading
          · exact across earlier listed other (List.mem_cons_of_mem _ there)
      · rw [Member.propertyNames_append, Member.propertyNames_cons] at distinct ⊢
        simpa only [Member.propertyNames_property, gains.name_eq] using distinct

end Accounts

/-! ## All functions of a trait -/

namespace Member

variable {interface : String} {members after : List Member} {functions : List TraitFunction}
  {parts : List (List TraitFunction)} {function : TraitFunction}

/-- **One function.** Adding a function behind those that the members account for makes them account
for it as well. -/
theorem addMethod_accounts (accounts : Accounts members functions parts)
    (latest : ∀ earlier ∈ functions, earlier.position < function.position)
    (added : addMethod interface members function.attributes function.signature = .ok after) :
    ∃ parts, Accounts after (functions ++ [function]) parts := by
  unfold addMethod at added
  obtain ⟨method, made, added⟩ := Except.bind_eq_ok_iff.mp added
  have becomes : function.Becomes method := Except.mapError_eq_ok_iff.mp made
  split at added
  next marked =>
    obtain ⟨before, property, grown, rest, rfl, gains, rfl⟩ | ⟨name, ty, grown, absent, gains, rfl⟩ :=
      addAccessor_eq_ok added
    · exact accounts.grow gains marked becomes latest
    · have unnamed : Property.NamesAccessors ⟨name, ty, none, none⟩ :=
        ⟨fun _ absent => (nomatch absent), fun _ absent => (nomatch absent)⟩
      obtain ⟨more, madeOf, only⟩ := gains.isMadeOf marked becomes unnamed .nil
      rw [List.perm_singleton.mp only] at madeOf
      refine ⟨_, accounts.concat madeOf ?_ latest⟩
      simpa [gains.name_eq] using absent
  next unmarked =>
    cases added
    refine ⟨_, accounts.concat (.method (Bool.eq_false_iff.mpr unmarked) becomes) ?_ latest⟩
    simp

end Member

namespace TraitMembers

/-- **Many functions.** So does adding the entries of a trait one after the other. -/
theorem foldlM_addEntry_accounts {interface : String} {entries : List TraitEntry}
    {members after : List Member} {functions : List TraitFunction}
    {parts : List (List TraitFunction)} {count : Nat}
    (accounts : Accounts members functions parts)
    (below : ∀ function ∈ functions, function.position < count)
    (added : entries.foldlM (fun members entry => (addEntry interface members entry).outcome)
      members = .ok after) :
    ∃ parts, Accounts after (functions ++ TraitEntry.functionsFrom count entries) parts := by
  induction entries generalizing members functions parts count with
  | nil =>
      cases added
      exact ⟨parts, by simpa [TraitEntry.functionsFrom] using accounts⟩
  | cons entry rest ih =>
      rw [List.foldlM_cons] at added
      obtain ⟨between, here, others⟩ := Except.bind_eq_ok_iff.mp added
      cases entry with
      | method attributes signature body =>
          let entered : TraitFunction := ⟨attributes, signature, count⟩
          obtain ⟨more, first⟩ : ∃ parts, Accounts between (functions ++ [entered]) parts :=
            Member.addMethod_accounts accounts below here
          have next : ∀ function ∈ functions ++ [entered], function.position < count + 1 := by
            intro function listed
            obtain earlier | rfl := List.mem_append.mp listed |>.imp_right List.mem_singleton.mp
            · exact Nat.lt_succ_of_lt (below function earlier)
            · exact Nat.lt_succ_self count
          obtain ⟨parts, all⟩ := ih first next others
          exact ⟨parts, by simpa [TraitEntry.functionsFrom] using all⟩
      | assocType name tokens => cases here
      | assocConst name tokens => cases here
      | other tokens =>
          cases here
          exact ih accounts below others

/-- The members of a trait account for all its functions. -/
theorem ofTrait_accounts {interface : String} {decl : TraitDecl} {own : TraitMembers}
    (made : (ofTrait interface decl).outcome = .ok own) :
    ∃ parts, Accounts own.members decl.item.functions parts := by
  have start : Accounts [] [] [] := ⟨.nil, .rfl, .nil, List.nodup_nil⟩
  exact foldlM_addEntry_accounts start (fun _ absent => absurd absent List.not_mem_nil)
    (ofTrait_eq_ok_iff.mp made).2.1

end TraitMembers

/-- Each function became the method in its place among those of the members. -/
theorem Accounts.become {members : List Member} {functions : List TraitFunction}
    {parts : List (List TraitFunction)} (accounts : Accounts members functions parts) :
    List.Forall₂ (fun method function => function.Becomes method)
      (members.flatMap Member.methods) parts.flatten := by
  rw [List.flatMap_def]
  refine List.rel_flatten ?_
  rw [List.forall₂_map_left_iff]
  exact accounts.made.imp fun _ _ made => made.becomes

/-- Each method of the members is what some function became. -/
theorem Accounts.exists_becomes {members : List Member} {functions : List TraitFunction}
    {parts : List (List TraitFunction)} (accounts : Accounts members functions parts)
    {method : Method} (listed : method ∈ members.flatMap Member.methods) :
    ∃ function ∈ functions, function.Becomes method := by
  obtain ⟨function, inside, becomes⟩ := exists_of_forall₂ accounts.become listed
  exact ⟨function, accounts.complete.subset inside, becomes⟩

/-- Each function became a method of some member. -/
theorem Accounts.exists_method {members : List Member} {functions : List TraitFunction}
    {parts : List (List TraitFunction)} (accounts : Accounts members functions parts)
    {function : TraitFunction} (declared : function ∈ functions) :
    ∃ method ∈ members.flatMap Member.methods, function.Becomes method :=
  exists_of_forall₂ accounts.become.flip (accounts.complete.symm.subset declared)

/-! ## The emitted implementation -/

/-- Of an implementation's code, only the block of its methods is a scope. -/
theorem DispatchImpl.filter_code (impl : DispatchImpl) (typeIdField typeIdName : String) :
    (impl.code typeIdField typeIdName).filter Code.isScope =
      [.scope ("impl " ++ impl.interface ++ " for " ++ impl.merged)
        (Code.spaced (impl.methods.map fun method => method.code typeIdField typeIdName))] :=
  rfl

namespace MergedType

/-- Each trait of the hierarchy has one block of code, which declares the methods of its members. -/
theorem dispatchCode_declares (config : Config) (merged : MergedType) :
    List.Forall₂ (fun declared block =>
        block.Declares ("impl " ++ declared.name ++ " for " ++ merged.name)
          ((declared.members.flatMap Member.methods).map Method.headText))
      merged.members.traits ((merged.dispatchCode config).filter Code.isScope) := by
  rw [dispatchCode, List.filter_flatMap]
  simp only [DispatchImpl.filter_code]
  rw [← List.map_eq_flatMap, dispatchImpls, List.map_map, List.forall₂_map_right_iff]
  refine List.forall₂_same.mpr fun declared _ => ⟨_, ?_, rfl⟩
  rw [List.map_map, List.forall₂_map_left_iff, List.forall₂_map_right_iff]
  exact List.forall₂_same.mpr fun method _ => ⟨_, rfl⟩

end MergedType

/-- **No function is lost or doubled.** If the members of a trait are collected, there are parts of its
functions that the members are made of, one part each, which together have every function once. An
unmarked function is a method by itself, and a marked one is an accessor of the property that is named
by it. The members are ordered by the first functions of their parts, and no two properties share a
name. Whichever merged type has the trait in its hierarchy, its code is what is written for it, and the
block in the trait's place declares what the functions became, one each, in the order of the parts. -/
theorem TraitMembers.ofTrait_functions {interface : String} {decl : TraitDecl} {own : TraitMembers}
    (made : (ofTrait interface decl).outcome = .ok own) :
    ∃ parts, Accounts own.members decl.item.functions parts ∧
      List.Forall₂ (fun method function => function.Becomes method)
        (own.members.flatMap Member.methods) parts.flatten ∧
      ∀ (config : Config) (merged : MergedType),
        Code.Writes (merged.emitDispatch config) (merged.dispatchCode config) ∧
        ∀ position : Nat, merged.members.traits[position]? = some own →
          ∃ block, ((merged.dispatchCode config).filter Code.isScope)[position]? = some block ∧
            block.Declares ("impl " ++ decl.name ++ " for " ++ merged.name)
              ((own.members.flatMap Member.methods).map Method.headText) := by
  obtain ⟨parts, accounts⟩ := ofTrait_accounts made
  refine ⟨parts, accounts, accounts.become, fun config merged =>
    ⟨merged.emitDispatch_writes config, fun position placed => ?_⟩⟩
  obtain ⟨inside, rfl⟩ := List.getElem?_eq_some_iff.mp placed
  obtain ⟨sameLength, each⟩ := List.forall₂_iff_get.mp (merged.dispatchCode_declares config)
  rw [← (ofTrait_declared made).1]
  exact ⟨_, List.getElem?_eq_getElem (sameLength ▸ inside), each position inside _⟩

/-- A trait with two accessors of one property around a method, and one of another. -/
def gaugeTrait : TraitItem :=
  { Generation.shapeTrait with
    name := "IGauge"
    entries :=
      [.method [⟨false, false, ["property"], .none⟩] ⟨false, false, false, none, "set_level", .none,
          [.receiver ⟨[], some none, true, none⟩,
            .typed [] (.binding "to" [.word "to"]) (.named "f32")], false, none, none⟩ none,
        .method [] ⟨false, false, false, none, "tick", .none,
          [.receiver ⟨[], some none, true, none⟩], false, none, none⟩ none,
        .method [⟨false, false, ["property"], .none⟩] ⟨false, false, false, none, "level", .none,
          [.receiver ⟨[], some none, false, none⟩], false, none, some (.named "f32")⟩ none,
        .method [⟨false, false, ["property"], .none⟩] ⟨false, false, false, none, "limit", .none,
          [.receiver ⟨[], some none, false, none⟩], false, none, some (.named "u8")⟩ none] }

/-- What the gauge consists of. -/
def gaugeMembers : TraitMembers where
  name := "IGauge"
  module := .root
  members :=
    [.property ⟨"level", .named "f32",
        some ⟨"level", .shared, "&self", [], some (.named "f32"), .none, false⟩,
        some ⟨"set_level", .exclusive, "&mut self", [⟨"to", .named "f32", .value⟩], none, .none,
          false⟩⟩,
      .method ⟨"tick", .exclusive, "&mut self", [], none, .none, false⟩,
      .property ⟨"limit", .named "u8",
        some ⟨"limit", .shared, "&self", [], some (.named "u8"), .none, false⟩, none⟩]

/-- The setter comes first in the gauge, but its property is emitted with the getter in front. -/
theorem TraitMembers.ofTrait_functions_gauge :
    (ofTrait "IGauge" ⟨.root, gaugeTrait⟩).outcome = .ok gaugeMembers ∧
      gaugeTrait.functions.length = 4 ∧
      (∃ parts, Accounts gaugeMembers.members gaugeTrait.functions parts) ∧
      ∃ block, ((MergedType.dispatchCode
          { Generation.shapeMerged with members := ⟨[Generation.shapeMembers, gaugeMembers]⟩ }
          Config.default).filter Code.isScope)[1]? = some block ∧
        block.Declares "impl IGauge for Shape"
          ["fn level(&self) -> f32", "fn set_level(&mut self, to: f32)", "fn tick(&mut self)",
            "fn limit(&self) -> u8"] := by
  have collected : (ofTrait "IGauge" ⟨.root, gaugeTrait⟩).outcome = .ok gaugeMembers := rfl
  obtain ⟨parts, accounts, -, emitted⟩ := ofTrait_functions collected
  obtain ⟨block, placed, declares⟩ := (emitted Config.default
    { Generation.shapeMerged with members := ⟨[Generation.shapeMembers, gaugeMembers]⟩ }).2 1 rfl
  have header : "impl " ++ "IGauge" ++ " for " ++ "Shape" = "impl IGauge for Shape" := by decide
  have heads : (gaugeMembers.members.flatMap Member.methods).map Method.headText =
      ["fn level(&self) -> f32", "fn set_level(&mut self, to: f32)", "fn tick(&mut self)",
        "fn limit(&self) -> u8"] := by
    decide
  rw [heads] at declares
  exact ⟨collected, rfl, ⟨parts, accounts⟩, block, placed, header ▸ declares⟩

end VariantMerge
