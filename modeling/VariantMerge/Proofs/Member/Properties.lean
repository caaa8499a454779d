import VariantMerge.Proofs.Hierarchy.Functions

/-!
# The shape of properties

A property has a getter, a setter or both. Its getter has its name, takes nothing and returns its
type; its setter is called `set_` and its name, takes one value of its type and returns nothing
(`Property.HasShape`). Adding an accessor keeps this (`Member.addAccessor_shaped`), so it holds of
all properties of a trait, and a marked function of another shape is refused
(`Member.addMethod_refuses`). The receiver is not looked at. An accessor has the one that is
written, so the properties of a trait can be read from a shared value and are written to an exclusive
one exactly if its marked functions say so.
-/

namespace VariantMerge

/-! ## Shapes -/

namespace Method

/-- The method reads a property: it takes nothing and returns a value of a type with this key. -/
structure Reads (method : Method) (name key : String) : Prop where
  name : method.name = name
  params : method.params = []
  output : ∃ ty, method.output = some ty ∧ ty.key = key

/-- The method writes a property: it takes one value of a type with this key and returns nothing. -/
structure Writes (method : Method) (name key : String) : Prop where
  name : method.name = "set_" ++ name
  params : ∃ param, method.params = [param] ∧ param.ty.key = key
  output : method.output = none

end Method

namespace Property

/-- The accessors that a property has agree with its name and type. -/
structure Agrees (property : Property) : Prop where
  getter : ∀ getter ∈ property.getter, getter.Reads property.name property.ty.key
  setter : ∀ setter ∈ property.setter, setter.Writes property.name property.ty.key

/-- A property as it is documented, but for the receivers of its accessors. -/
structure HasShape (property : Property) : Prop extends property.Agrees where
  nonempty : property.getter.isSome ∨ property.setter.isSome

/-- The getter takes a shared reference, and the setter an exclusive one. -/
def HasReceivers (property : Property) : Prop :=
  (∀ getter ∈ property.getter, getter.receiver = .shared) ∧
    ∀ setter ∈ property.setter, setter.receiver = .exclusive

end Property

namespace Signature

variable (signature : Signature)

/-- The function is a method that takes its value like this, by a receiver without a type. -/
def Takes (kind : ReceiverKind) : Prop :=
  ∃ receiver rest, signature.inputs = .receiver receiver :: rest ∧ receiver.ty = none ∧
    match kind with
    | .shared => receiver.reference.isSome ∧ receiver.isMut = false
    | .exclusive => receiver.reference.isSome ∧ receiver.isMut = true
    | .value => receiver.reference = none

/-- The function returns something other than the unit. -/
def ReturnsValue : Prop :=
  ∃ ty, signature.output = some ty ∧ ty.isUnit = false

/-- The function has one input, its receiver, and returns a value. -/
def IsGetter : Prop :=
  signature.inputs.length = 1 ∧ signature.ReturnsValue

/-- The function has an input besides its receiver, returns nothing, and is called a setter. -/
def IsSetter : Prop :=
  (∃ name, signature.name = "set_" ++ name) ∧ signature.inputs.length = 2 ∧
    ¬ signature.ReturnsValue

/-- As a getter the function takes a shared reference, and as a setter an exclusive one. -/
def HasAccessorReceiver : Prop :=
  (signature.IsGetter → signature.Takes .shared) ∧
    (signature.IsSetter → signature.Takes .exclusive)

end Signature

/-! ## Signatures of accessors -/

theorem Method.receiverOf_eq_ok {signature : Signature} {taken : ReceiverKind} {text : String}
    (made : receiverOf signature.inputs = .ok (taken, text)) (kind : ReceiverKind) :
    signature.Takes kind ↔ taken = kind := by
  unfold Signature.Takes
  cases inputs : signature.inputs with
  | nil =>
      rw [inputs] at made
      cases made
  | cons input rest =>
      rw [inputs] at made
      cases input with
      | typed attributes pattern ty => cases made
      | receiver receiver =>
          obtain ⟨attributes, reference, isMut, _ | ty⟩ := receiver
          · cases reference <;> cases isMut <;> cases made <;> cases kind <;> simp
          · cases made

namespace Signature.AcceptedAs

variable {signature : Signature} {method : Method}

theorem takes_iff (accepted : signature.AcceptedAs method) (kind : ReceiverKind) :
    signature.Takes kind ↔ method.receiver = kind :=
  Method.receiverOf_eq_ok accepted.receiver kind

/-- The receiver is an input, and all others are parameters. -/
theorem length_inputs (accepted : signature.AcceptedAs method) :
    signature.inputs.length = method.params.length + 1 := by
  have passed := (Except.mapM_eq_ok_iff.mp accepted.params).length_eq
  have taken := accepted.receiver
  cases inputs : signature.inputs with
  | nil =>
      rw [inputs] at taken
      cases taken
  | cons receiver rest =>
      rw [inputs, List.length_zipIdx] at passed
      rw [List.length_cons, ← passed]
      rfl

theorem returnsValue_iff (accepted : signature.AcceptedAs method) :
    signature.ReturnsValue ↔ method.output.isSome := by
  unfold Signature.ReturnsValue
  obtain ⟨unit, absent⟩ | ⟨ty, written, returned, valued, -⟩ :=
    Method.outputOf_eq_ok_iff.mp accepted.output
  · constructor
    · rintro ⟨ty, written, valued⟩
      exact Bool.noConfusion ((unit ty written).symm.trans valued)
    · intro returned
      simp [absent] at returned
  · exact ⟨fun _ => by rw [returned, Option.isSome_some], fun _ => ⟨ty, written, valued⟩⟩

theorem isGetter_of_reads (accepted : signature.AcceptedAs method) {name key : String}
    (reads : method.Reads name key) : signature.IsGetter := by
  obtain ⟨ty, returned, -⟩ := reads.output
  refine ⟨?_, accepted.returnsValue_iff.mpr ?_⟩
  · rw [accepted.length_inputs, reads.params, List.length_nil]
  · rw [returned, Option.isSome_some]

theorem isSetter_of_writes (accepted : signature.AcceptedAs method) {name key : String}
    (writes : method.Writes name key) : signature.IsSetter := by
  obtain ⟨param, taken, -⟩ := writes.params
  refine ⟨⟨name, accepted.name ▸ writes.name⟩, ?_, fun returns => ?_⟩
  · rw [accepted.length_inputs, taken, List.length_singleton]
  · have returned := accepted.returnsValue_iff.mp returns
    rw [writes.output] at returned
    cases returned

end Signature.AcceptedAs

namespace Property

theorem setterName?_eq_some_iff {called name : String} :
    setterName? called = some name ↔ called = "set_" ++ name := by
  have letters : ("set_" ++ name).toList = 's' :: 'e' :: 't' :: '_' :: name.toList := by
    rw [String.toList_append]
    rfl
  unfold setterName?
  constructor
  · intro cut
    split at cut
    next rest spelled =>
      cases cut
      rw [← String.toList_inj, spelled, letters, String.toList_ofList]
    next => cases cut
  · rintro rfl
    simp only [letters, String.ofList_toList]

/-- An accessor reads or writes the property that it is of. -/
theorem accessor?_shape {method : Method} {accessor : Accessor}
    (shaped : accessor? method = some accessor) :
    match accessor with
    | .getter name output => ∃ ty, output = some ty ∧ method.Reads name ty.key
    | .setter name ty => method.Writes name ty.key := by
  have described := accessor?_eq_some_iff.mp shaped
  cases accessor with
  | getter name output =>
      obtain ⟨called, none_, returned, present⟩ := described
      obtain ⟨ty, rfl⟩ := Option.isSome_iff_exists.mp present
      exact ⟨ty, rfl, called, none_, ty, returned, rfl⟩
  | setter name ty =>
      obtain ⟨called, ⟨param, taken, rfl⟩, output⟩ := described
      exact ⟨setterName?_eq_some_iff.mp called, ⟨param, taken, rfl⟩, output⟩

/-! ## Adding an accessor -/

variable {property grown : Property} {ty : Ty} {method : Method}

theorem addGetter_hasShape (agrees : property.Agrees)
    (reads : method.Reads property.name ty.key) (added : property.addGetter ty method = .ok grown) :
    grown.HasShape := by
  obtain ⟨-, same, rfl⟩ := addGetter_eq_ok_iff.mp added
  refine ⟨⟨fun getter here => ?_, agrees.setter⟩, .inl rfl⟩
  cases here
  exact same ▸ reads

theorem addSetter_hasShape (agrees : property.Agrees)
    (writes : method.Writes property.name ty.key) (added : property.addSetter ty method = .ok grown) :
    grown.HasShape := by
  obtain ⟨-, same, rfl⟩ := addSetter_eq_ok_iff.mp added
  refine ⟨⟨agrees.getter, fun setter here => ?_⟩, .inr rfl⟩
  cases here
  exact same ▸ writes

end Property

namespace Member

/-- All properties among the members have their shape. -/
def Shaped (members : List Member) : Prop :=
  ∀ property, .property property ∈ members → property.HasShape

variable {members after : List Member}

theorem updateProperty_shaped {name : String} {ty : Ty} {change : Property → Except ε Property}
    (changes : ∀ property grown, property.Agrees → property.name = name →
      change property = .ok grown → grown.HasShape)
    (shaped : Shaped members) (updated : updateProperty name ty change members = .ok after) :
    Shaped after := by
  obtain ⟨before, property, changed, rest, rfl, named, turned, rfl⟩ | ⟨added, -, turned, rfl⟩ :=
    updateProperty_eq_ok updated
  · intro other listed
    obtain earlier | here | later : _ ∨ _ ∨ _ := by
      simpa only [List.mem_append, List.mem_cons] using listed
    · exact shaped other (List.mem_append_left _ earlier)
    · cases here
      have agreed := (shaped property (List.mem_append_right _ List.mem_cons_self)).toAgrees
      exact changes property changed agreed named turned
    · exact shaped other (List.mem_append_right _ (List.mem_cons_of_mem _ later))
  · intro other listed
    obtain earlier | here : _ ∨ _ := by
      simpa only [List.mem_append, List.mem_singleton] using listed
    · exact shaped other earlier
    · cases here
      have empty : (⟨name, ty, none, none⟩ : Property).Agrees := ⟨by rintro _ ⟨⟩, by rintro _ ⟨⟩⟩
      exact changes _ added empty rfl turned

theorem addAccessor_shaped {interface : String} {method : Method} (shaped : Shaped members)
    (added : addAccessor interface members method = .ok after) : Shaped after := by
  unfold addAccessor at added
  split at added
  next name ty read =>
    obtain ⟨_, same, reads⟩ := Property.accessor?_shape read
    cases same
    refine updateProperty_shaped (fun property grown agrees named changed => ?_) shaped added
    exact Property.addGetter_hasShape agrees (named ▸ reads) (Except.mapError_eq_ok_iff.mp changed)
  next => cases added
  next name ty written =>
    have writes := Property.accessor?_shape written
    refine updateProperty_shaped (fun property grown agrees named changed => ?_) shaped added
    exact Property.addSetter_hasShape agrees (named ▸ writes) (Except.mapError_eq_ok_iff.mp changed)
  next => cases added

/-- **One function.** Adding a function leaves all properties in shape. -/
theorem addMethod_shaped {interface : String} {attributes : List Attribute} {signature : Signature}
    (shaped : Shaped members) (added : addMethod interface members attributes signature = .ok after) :
    Shaped after := by
  unfold addMethod at added
  obtain ⟨method, -, added⟩ := Except.bind_eq_ok_iff.mp added
  split at added
  · exact addAccessor_shaped shaped added
  · cases added
    intro property listed
    obtain earlier | here : _ ∨ _ := by
      simpa only [List.mem_append, List.mem_singleton] using listed
    · exact shaped property earlier
    · cases here

/-- A marked function of another shape cannot be added, whatever the members are. -/
theorem addMethod_refuses (interface : String) {attributes : List Attribute} {signature : Signature}
    (marked : Attribute.anyNamed attributes Property.mark = true)
    (other : ¬ (signature.IsGetter ∨ signature.IsSetter)) :
    ∃ reason, (∀ members, addMethod interface members attributes signature =
        .error (.unsupportedMember interface signature.name reason)) ∧
      ((∃ method, Method.ofSignature signature = .ok method) → reason = .accessorShape) := by
  unfold addMethod
  cases made : Method.ofSignature signature with
  | error reason =>
      refine ⟨reason, fun _ => rfl, ?_⟩
      rintro ⟨_, accepted⟩
      cases accepted
  | ok method =>
      have accepted := Method.ofSignature_eq_ok_iff.mp made
      have none_ : Property.accessor? method = none := by
        refine Option.eq_none_iff_forall_ne_some.mpr fun accessor shaped => other ?_
        have shape := Property.accessor?_shape shaped
        cases accessor with
        | getter name output =>
            obtain ⟨ty, -, reads⟩ := shape
            exact .inl (accepted.isGetter_of_reads reads)
        | setter name ty => exact .inr (accepted.isSetter_of_writes shape)
      refine ⟨.accessorShape, fun members => ?_, fun _ => rfl⟩
      change (if Attribute.anyNamed attributes Property.mark = true
        then addAccessor interface members method else _) = _
      rw [if_pos marked, addAccessor, none_, accepted.name]

end Member

/-! ## The properties of a trait -/

namespace Accounts

variable {members : List Member} {functions : List TraitFunction}
  {parts : List (List TraitFunction)}

/-- Each accessor of a property is what a marked function became. -/
theorem exists_function (accounts : Accounts members functions parts) {property : Property}
    (listed : .property property ∈ members) {accessor : Method}
    (present : accessor ∈ property.accessors) :
    ∃ function ∈ functions, function.isMarked = true ∧ function.Becomes accessor := by
  obtain ⟨part, given, made⟩ := exists_of_forall₂ accounts.made listed
  cases made with
  | property _ _ become =>
      obtain ⟨function, inside, marked, becomes⟩ := exists_of_forall₂ become present
      exact ⟨function, accounts.complete.subset (List.mem_flatten_of_mem given inside), marked,
        becomes⟩

/-- Each marked function became an accessor of a property. -/
theorem exists_accessor (accounts : Accounts members functions parts) {function : TraitFunction}
    (listed : function ∈ functions) (marked : function.isMarked = true) :
    ∃ property, .property property ∈ members ∧
      ∃ accessor ∈ property.accessors, function.Becomes accessor := by
  obtain ⟨part, given, inside⟩ := List.mem_flatten.mp (accounts.complete.symm.subset listed)
  obtain ⟨member, present, made⟩ := exists_of_forall₂ accounts.made.flip given
  cases made with
  | method unmarked _ =>
      rw [List.mem_singleton.mp inside, unmarked] at marked
      cases marked
  | property _ _ become =>
      obtain ⟨accessor, taken, -, becomes⟩ := exists_of_forall₂ become.flip inside
      exact ⟨_, present, accessor, taken, becomes⟩

/-- Properties have the receivers that their marked functions are written with. -/
theorem hasReceivers_iff (accounts : Accounts members functions parts)
    (shaped : Member.Shaped members) :
    (∀ property, .property property ∈ members → property.HasReceivers) ↔
      ∀ function ∈ functions, function.isMarked = true → function.signature.HasAccessorReceiver := by
  constructor
  · intro receivers function listed marked
    obtain ⟨property, present, accessor, taken, becomes⟩ := accounts.exists_accessor listed marked
    have accepted := Method.ofSignature_eq_ok_iff.mp becomes
    have shape := shaped property present
    obtain ⟨shared, exclusive⟩ := receivers property present
    obtain getter | setter := List.mem_append.mp taken
    · rw [Option.mem_toList] at getter
      refine ⟨fun _ => (accepted.takes_iff _).mpr (shared accessor getter), fun setter => ?_⟩
      exact absurd (accepted.isGetter_of_reads (shape.getter accessor getter)).2 setter.2.2
    · rw [Option.mem_toList] at setter
      refine ⟨fun getter => ?_, fun _ => (accepted.takes_iff _).mpr (exclusive accessor setter)⟩
      exact absurd getter.2 (accepted.isSetter_of_writes (shape.setter accessor setter)).2.2
  · intro declared property present
    have shape := shaped property present
    refine ⟨fun getter here => ?_, fun setter here => ?_⟩
    · have taken : getter ∈ property.accessors :=
        List.mem_append_left _ (Option.mem_toList.mpr here)
      obtain ⟨function, listed, marked, becomes⟩ := accounts.exists_function present taken
      have accepted := Method.ofSignature_eq_ok_iff.mp becomes
      have isGetter := accepted.isGetter_of_reads (shape.getter getter here)
      exact (accepted.takes_iff _).mp ((declared function listed marked).1 isGetter)
    · have taken : setter ∈ property.accessors :=
        List.mem_append_right _ (Option.mem_toList.mpr here)
      obtain ⟨function, listed, marked, becomes⟩ := accounts.exists_function present taken
      have accepted := Method.ofSignature_eq_ok_iff.mp becomes
      have isSetter := accepted.isSetter_of_writes (shape.setter setter here)
      exact (accepted.takes_iff _).mp ((declared function listed marked).2 isSetter)

end Accounts

namespace TraitMembers

/-- **Many functions.** All properties of a trait have their shape. -/
theorem ofEntries_shaped {interface : String} {entries : List TraitEntry} {members : List Member}
    (collected : ofEntries interface entries = .ok members) : Member.Shaped members := by
  have start : Member.Shaped [] := fun _ absent => absurd absent List.not_mem_nil
  refine Except.foldlM_keeps (fun entry _ state after shaped added => ?_) start collected
  cases entry with
  | method attributes signature body => exact Member.addMethod_shaped shaped added
  | assocType name tokens => cases added
  | assocConst name tokens => cases added
  | other tokens =>
      cases added
      exact shaped

/-- **The shape of properties.** Every property of a trait whose members are collected has a getter
or a setter. The getter has the property's name, takes no parameter and returns a value of its type;
the setter is called `set_` and that name, takes exactly one parameter, of its type, and returns
nothing. The getters take a shared reference and the setters an exclusive one exactly if all marked
functions of the trait are declared so: this is not checked. A marked function of another shape makes
the collection fail. -/
theorem ofTrait_properties (interface : String) (decl : TraitDecl) :
    (∀ own, (ofTrait interface decl).outcome = .ok own →
      (∀ property, .property property ∈ own.members → property.HasShape) ∧
        ((∀ property, .property property ∈ own.members → property.HasReceivers) ↔
          ∀ function ∈ decl.item.functions, function.isMarked = true →
            function.signature.HasAccessorReceiver)) ∧
    ∀ before attributes signature body after,
      decl.item.entries = before ++ .method attributes signature body :: after →
      Attribute.anyNamed attributes Property.mark = true →
      ¬ (signature.IsGetter ∨ signature.IsSetter) →
        ∃ reason,
          Refuses interface decl before (.unsupportedMember interface signature.name reason) ∧
            ((∃ method, Method.ofSignature signature = .ok method) → reason = .accessorShape) := by
  refine ⟨fun own made => ?_, fun before attributes signature body after declared marked other => ?_⟩
  · have shaped := ofEntries_shaped (ofTrait_eq_ok_iff.mp made).2.1
    obtain ⟨parts, accounts⟩ := ofTrait_accounts made
    exact ⟨shaped, accounts.hasReceivers_iff shaped⟩
  · obtain ⟨reason, fails, otherwise⟩ := Member.addMethod_refuses interface marked other
    exact ⟨reason, refuses_of_entry declared fails, otherwise⟩

end TraitMembers

/-- A function of a trait that is marked as an accessor. -/
def markedMethod (name : String) (inputs : List FnInput) (output : Option Ty) : TraitEntry :=
  .method [⟨false, false, ["property"], .none⟩]
    ⟨false, false, false, none, name, .none, inputs, false, none, output⟩ none

/-- The gauge with a marked function that is neither a getter nor a setter. -/
def resettableTrait : TraitItem :=
  { gaugeTrait with
    entries := gaugeTrait.entries ++
      [markedMethod "reset" [.receiver ⟨[], some none, true, none⟩] none] }

/-- A trait with a setter that takes a shared reference. -/
def lampTrait : TraitItem :=
  { gaugeTrait with
    name := "ILamp"
    entries :=
      [markedMethod "set_level" [.receiver ⟨[], some none, false, none⟩,
        .typed [] (.binding "to" [.word "to"]) (.named "f32")] none] }

/-- The one property of the lamp. -/
def lampLevel : Property where
  name := "level"
  ty := .named "f32"
  getter := none
  setter := some ⟨"set_level", .shared, "&self", [⟨"to", .named "f32", .value⟩], none, .none, false⟩

namespace TraitMembers

/-- The properties of the gauge, and a function that is not one. -/
theorem ofTrait_properties_gauge :
    (∀ property, .property property ∈ gaugeMembers.members → property.HasShape) ∧
      (∀ function ∈ gaugeTrait.functions, function.isMarked = true →
        function.signature.HasAccessorReceiver) ∧
      (ofTrait "IGauge" ⟨.root, resettableTrait⟩).outcome =
        .error (.unsupportedMember "IGauge" "reset" .accessorShape) := by
  have collected : (ofTrait "IGauge" ⟨.root, gaugeTrait⟩).outcome = .ok gaugeMembers := rfl
  obtain ⟨shaped, receivers⟩ := (ofTrait_properties "IGauge" ⟨.root, gaugeTrait⟩).1 _ collected
  have taken : ∀ property, .property property ∈ gaugeMembers.members → property.HasReceivers := by
    simp [gaugeMembers, Property.HasReceivers]
  have marked : Attribute.anyNamed [⟨false, false, ["property"], .none⟩] Property.mark = true := by
    decide
  obtain ⟨reason, ⟨first, failed, only⟩, otherwise⟩ :=
    (ofTrait_properties "IGauge" ⟨.root, resettableTrait⟩).2 gaugeTrait.entries _ _ none [] rfl
      marked (by rintro (⟨-, _, returned, -⟩ | ⟨-, two, -⟩) <;> contradiction)
  rw [otherwise ⟨_, rfl⟩] at only
  have stops := only rfl _ (ofTrait_eq_ok_iff.mp collected).2.1
  exact ⟨shaped, receivers.mp taken, failed.trans (congrArg _ stops)⟩

/-- The setter of the lamp cannot change what it is called on, and is accepted. -/
theorem ofTrait_properties_lamp :
    (ofTrait "ILamp" ⟨.root, lampTrait⟩).outcome =
        .ok ⟨"ILamp", .root, [.property lampLevel]⟩ ∧
      ¬ lampLevel.HasReceivers := by
  refine ⟨rfl, fun receivers => ?_⟩
  have exclusive := receivers.2 _ rfl
  cases exclusive

end TraitMembers

end VariantMerge
