import VariantMerge.Proofs.Dispatch.Equivalence
import VariantMerge.Proofs.Hierarchy.Methods

/-!
# Names of parameters

A parameter keeps the name that it is given, and one without a name is numbered by its position.
Numbers do not repeat, so if the given names are distinct, two parameters share a name exactly if one
is numbered as another is called (`Param.nodup_nameFor_iff`). A dispatching method declares its
parameters under these names, and each arm passes them on in order. An argument then stands for the
parameter in its place exactly if the names are distinct and none of them is that of the rebuilt
instance (`Frame.forwards_afterRebuild_iff`).
-/

namespace VariantMerge

namespace Param

/-! ## Numbers and names -/

/-- The name of a parameter that is not given one. -/
def numbered (position : Nat) : String :=
  "arg" ++ toString position

theorem numbered_injective : Function.Injective numbered := by
  intro first second same
  have digits : Nat.toDigits 10 first = Nat.toDigits 10 second := by
    have texts := congrArg String.toList same
    simpa [numbered, Nat.toString_eq_ofList_toDigits] using texts
  calc first = Nat.ofDigitChars 10 (Nat.toDigits 10 first) 0 :=
        Nat.ofDigitChars_ten_toDigits.symm
    _ = Nat.ofDigitChars 10 (Nat.toDigits 10 second) 0 := by rw [digits]
    _ = second := Nat.ofDigitChars_ten_toDigits

/-- The rebuilt instance is not called like a parameter without a name. -/
theorem numbered_ne_instanceName (position : Nat) : numbered position ≠ Dispatch.instanceName := by
  intro same
  have letters := congrArg String.toList same
  simp [numbered, Dispatch.instanceName] at letters

theorem nameFor_of_named {pattern : Pattern} {name : String} (named : pattern.name? = some name)
    (position : Nat) : nameFor pattern position = name := by
  rw [nameFor, named, Option.getD_some]

theorem nameFor_of_unnamed {pattern : Pattern} (unnamed : pattern.name? = none) (position : Nat) :
    nameFor pattern position = numbered position := by
  rw [nameFor, unnamed, Option.getD_none, numbered]

/-- The names of parameters with these patterns, in order. -/
def namesFor (patterns : List Pattern) : List String :=
  patterns.zipIdx.map fun entry => nameFor entry.1 entry.2

/-- One of the parameters has no name, and is numbered as another one is called. -/
def NumbersGivenName (patterns : List Pattern) : Prop :=
  ∃ position pattern, patterns[position]? = some pattern ∧ pattern.name? = none ∧
    numbered position ∈ patterns.filterMap Pattern.name?

variable {patterns : List Pattern}

theorem getElem?_namesFor (position : Nat) :
    (namesFor patterns)[position]? = patterns[position]?.map (nameFor · position) := by
  rw [namesFor, List.getElem?_map, List.getElem?_zipIdx, Option.map_map, Nat.zero_add]
  rfl

/-- Given names at two places are different if all given names are. -/
theorem named_injective (given : (patterns.filterMap Pattern.name?).Nodup) {i j : Nat}
    {first second : Pattern} {name : String} (here : patterns[i]? = some first)
    (there : patterns[j]? = some second) (named : first.name? = some name)
    (same : second.name? = some name) : i = j := by
  have apart := List.pairwise_iff_getElem.mp (List.pairwise_filterMap.mp given)
  obtain ⟨inside, rfl⟩ := List.getElem?_eq_some_iff.mp here
  obtain ⟨inside', rfl⟩ := List.getElem?_eq_some_iff.mp there
  obtain before | rfl | after := Nat.lt_trichotomy i j
  · exact absurd rfl (apart i j inside inside' before name named name same)
  · rfl
  · exact absurd rfl (apart j i inside' inside after name same name named)

theorem mem_given {position : Nat} {pattern : Pattern} {name : String}
    (here : patterns[position]? = some pattern) (named : pattern.name? = some name) :
    name ∈ patterns.filterMap Pattern.name? :=
  List.mem_filterMap.mpr ⟨pattern, List.mem_of_getElem? here, named⟩

/-- A name tells the position of its parameter if no number is given as a name. -/
theorem nameFor_position_inj (given : (patterns.filterMap Pattern.name?).Nodup)
    (apart : ¬ NumbersGivenName patterns) {i j : Nat} {first second : Pattern}
    (here : patterns[i]? = some first) (there : patterns[j]? = some second)
    (same : nameFor first i = nameFor second j) : i = j := by
  cases named : first.name? with
  | none =>
      rw [nameFor_of_unnamed named] at same
      cases called : second.name? with
      | none =>
          rw [nameFor_of_unnamed called] at same
          exact numbered_injective same
      | some name =>
          rw [nameFor_of_named called] at same
          exact absurd ⟨i, first, here, named, mem_given there (same ▸ called)⟩ apart
  | some name =>
      rw [nameFor_of_named named] at same
      cases called : second.name? with
      | none =>
          rw [nameFor_of_unnamed called] at same
          exact absurd ⟨j, second, there, called, mem_given here (same ▸ named)⟩ apart
      | some other =>
          rw [nameFor_of_named called] at same
          exact named_injective given here there named (same ▸ called)

/-- **Distinct names.** If the given names are distinct, all names are, unless a parameter is numbered
as another one is called. -/
theorem nodup_nameFor_iff (given : (patterns.filterMap Pattern.name?).Nodup) :
    (namesFor patterns).Nodup ↔ ¬ NumbersGivenName patterns := by
  constructor
  · rintro distinct ⟨position, pattern, here, unnamed, taken⟩
    obtain ⟨other, listed, named⟩ := List.mem_filterMap.mp taken
    obtain ⟨place, there⟩ := List.mem_iff_getElem?.mp listed
    have numbers : (namesFor patterns)[position]? = some (numbered position) := by
      rw [getElem?_namesFor, here, Option.map_some, nameFor_of_unnamed unnamed]
    have calls : (namesFor patterns)[place]? = some (numbered position) := by
      rw [getElem?_namesFor, there, Option.map_some, nameFor_of_named named]
    obtain ⟨inside, -⟩ := List.getElem?_eq_some_iff.mp numbers
    cases (List.getElem?_inj inside distinct).mp (numbers.trans calls.symm)
    cases here.symm.trans there
    cases unnamed.symm.trans named
  · intro apart
    refine List.nodup_iff_getElem?_ne_getElem?.mpr fun i j before inside same => ?_
    obtain ⟨second, there, called⟩ : ∃ second, patterns[j]? = some second ∧
        nameFor second j = (namesFor patterns)[j] := by
      rw [← Option.map_eq_some_iff, ← getElem?_namesFor]
      exact List.getElem?_eq_getElem inside
    rw [getElem?_namesFor, getElem?_namesFor, there, Option.map_some,
      Option.map_eq_some_iff] at same
    obtain ⟨first, here, same⟩ := same
    exact Nat.ne_of_lt before (nameFor_position_inj given apart here there same)

/-- The rebuilt instance has its name for itself unless a parameter is given it. -/
theorem instanceName_mem_namesFor_iff :
    Dispatch.instanceName ∈ namesFor patterns ↔
      Dispatch.instanceName ∈ patterns.filterMap Pattern.name? := by
  simp only [List.mem_iff_getElem? (l := namesFor patterns), getElem?_namesFor,
    Option.map_eq_some_iff, List.mem_filterMap]
  constructor
  · rintro ⟨position, pattern, here, called⟩
    cases named : pattern.name? with
    | none =>
        rw [nameFor_of_unnamed named] at called
        exact absurd called (numbered_ne_instanceName position)
    | some name =>
        rw [nameFor_of_named named] at called
        exact ⟨pattern, List.mem_of_getElem? here, called ▸ named⟩
  · rintro ⟨pattern, listed, named⟩
    obtain ⟨position, here⟩ := List.mem_iff_getElem?.mp listed
    exact ⟨position, pattern, here, nameFor_of_named named position⟩

/-! ## The parameters of a signature -/

/-- The parameter has the type of an input, and its name if it is given one. -/
def IsFor (input : FnInput) (param : Param) : Prop :=
  ∃ attributes pattern, input = .typed attributes pattern param.ty ∧
    ∀ name ∈ pattern.name?, param.name = name

end Param

/-- The pattern of an input that is no receiver. -/
def FnInput.pattern? : FnInput → Option Pattern
  | .receiver _ => none
  | .typed _ pattern _ => some pattern

namespace Signature

/-- The patterns of the inputs after the receiver. -/
def patterns (signature : Signature) : List Pattern :=
  (signature.inputs.drop 1).filterMap FnInput.pattern?

/-- The names that are given to parameters. -/
def givenNames (signature : Signature) : List String :=
  signature.patterns.filterMap Pattern.name?

variable {signature : Signature} {method : Method}

/-- Inputs that become parameters one by one, from some position on. -/
theorem names_of_inputs {inputs : List FnInput} {start : Nat} {params : List Param}
    (become : List.Forall₂ (fun entry param => Param.ofInput entry.1 entry.2 = .ok param)
      (inputs.zipIdx start) params) :
    params.map Param.name =
        ((inputs.filterMap FnInput.pattern?).zipIdx start).map
          (fun entry => Param.nameFor entry.1 entry.2) ∧
      List.Forall₂ Param.IsFor inputs params := by
  induction inputs generalizing start params with
  | nil =>
      cases become
      exact ⟨rfl, .nil⟩
  | cons input rest ih =>
      rw [List.zipIdx_cons] at become
      obtain ⟨param, later, made, others, rfl⟩ := List.forall₂_cons_left_iff.mp become
      obtain ⟨attributes, pattern, rfl, -, called, -⟩ := Param.ofInput_eq_ok_iff.mp made
      obtain ⟨names, each⟩ := ih others
      refine ⟨?_, .cons ⟨attributes, pattern, rfl, fun name named => ?_⟩ each⟩
      · simp only [List.map_cons, List.filterMap_cons, FnInput.pattern?, List.zipIdx_cons, names,
          called]
      · rw [called, Param.nameFor_of_named named]

theorem AcceptedAs.names_eq (accepted : signature.AcceptedAs method) :
    method.params.map Param.name = Param.namesFor signature.patterns :=
  (names_of_inputs (Except.mapM_eq_ok_iff.mp accepted.params)).1

theorem AcceptedAs.params_isFor (accepted : signature.AcceptedAs method) :
    List.Forall₂ Param.IsFor (signature.inputs.drop 1) method.params :=
  (names_of_inputs (Except.mapM_eq_ok_iff.mp accepted.params)).2

end Signature

/-! ## Arguments of a call -/

namespace Frame

variable {α : Type*}

/-- Each of the names stands for the parameter in its place. -/
def Forwards (frame : Frame α) (names : List String) : Prop :=
  ∀ position name, names[position]? = some name → frame.position? name = some position

/-- **What a call is passed.** With the instance rebuilt, the names of the parameters stand for them
in order exactly if they are distinct and the instance hides none of them. -/
theorem forwards_afterRebuild_iff {receiver : ReceiverKind} {names : List String}
    {m : MergedValue α} {arguments : List α} {rebuilt : Rebuilt α} :
    (afterRebuild receiver names m arguments rebuilt).Forwards names ↔
      names.Nodup ∧ Dispatch.instanceName ∉ names := by
  constructor
  · intro forwards
    refine ⟨List.nodup_iff_getElem?_ne_getElem?.mpr fun i j before inside same => ?_, fun taken => ?_⟩
    · have there := List.getElem?_eq_getElem inside
      have first := forwards i _ (same.trans there)
      rw [forwards j _ there, Option.some.injEq] at first
      exact Nat.ne_of_lt before first.symm
    · obtain ⟨position, here⟩ := List.mem_iff_getElem?.mp taken
      have hidden : (afterRebuild receiver names m arguments rebuilt).position?
          Dispatch.instanceName = none := by
        rw [position?, afterRebuild, List.lookup_cons_self]
      cases hidden.symm.trans (forwards position _ here)
  · rintro ⟨distinct, free⟩ position name here
    exact position?_afterRebuild distinct free (List.mk_mem_zipIdx_iff_getElem?.mpr here)

end Frame

/-- The call that a step makes. -/
def ArmStep.call? : ArmStep → Option Call
  | .bindResult call | .perform call | .yieldCall call => some call
  | .rebuild .. | .writeBack _ | .yieldResult => none

/-- Every arm makes one call, with all parameters in order. -/
theorem Method.calls_stepsFor (method : Method) (names : ConversionNames)
    (interface variant : String) :
    (method.stepsFor names interface variant).filterMap ArmStep.call? =
      [method.callOn interface variant] := by
  unfold stepsFor
  cases method.receiver <;> cases method.returnsValue <;> rfl

/-- The head of a method lists its receiver and its parameters with their types. -/
theorem Method.headText_inputs (method : Method) :
    ∃ before after, method.headText = before ++ "(" ++
      String.intercalate ", " (method.receiverText :: method.params.map fun param =>
        param.name ++ ": " ++ param.ty.text) ++ ")" ++ after := by
  unfold headText
  exact ⟨_, _, String.append_assoc⟩

/-- **Parameters stay apart.** Let a method be accepted whose parameters, as far as they have names,
have distinct ones. The names under which it is dispatched are distinct exactly if no parameter
without a name is numbered as another one is called. Each parameter has the type of its input and
keeps its name, the emitted method declares them all in order, and every arm makes one call with as
many arguments. These stand for the parameters in their places exactly if the names are distinct and
no parameter is called like the rebuilt instance. -/
theorem Method.ofSignature_parameters {α : Type*} {signature : Signature} {method : Method}
    (made : ofSignature signature = .ok method) (given : signature.givenNames.Nodup) :
    ((method.params.map Param.name).Nodup ↔ ¬ Param.NumbersGivenName signature.patterns) ∧
      List.Forall₂ Param.IsFor (signature.inputs.drop 1) method.params ∧
      ∀ (names : ConversionNames) (interface : String) (variants : List String),
        let emitted := method.dispatch names interface variants
        (∃ before after, emitted.head = before ++ "(" ++
          String.intercalate ", " (method.receiverText :: method.params.map fun param =>
            param.name ++ ": " ++ param.ty.text) ++ ")" ++ after) ∧
        ∀ arm ∈ emitted.arms, ∃ call, arm.steps.filterMap ArmStep.call? = [call] ∧
          call.arguments.length = method.params.length ∧
          ∀ (m : MergedValue α) (arguments : List α) (rebuilt : Rebuilt α),
            (Frame.afterRebuild method.receiver (method.params.map Param.name) m arguments
                rebuilt).Forwards call.arguments ↔
              ¬ Param.NumbersGivenName signature.patterns ∧
                Dispatch.instanceName ∉ signature.givenNames := by
  have accepted := ofSignature_eq_ok_iff.mp made
  have distinct := Param.nodup_nameFor_iff given
  rw [← accepted.names_eq] at distinct
  have free : Dispatch.instanceName ∈ method.params.map Param.name ↔
      Dispatch.instanceName ∈ signature.givenNames := by
    rw [accepted.names_eq]
    exact Param.instanceName_mem_namesFor_iff
  refine ⟨distinct, accepted.params_isFor, fun names interface variants => ?_⟩
  refine ⟨method.headText_inputs, fun arm emitted => ?_⟩
  obtain ⟨variant, -, rfl⟩ := List.mem_map.mp emitted
  refine ⟨_, method.calls_stepsFor names interface variant, List.length_map _, fun m arguments
    rebuilt => ?_⟩
  rw [← distinct, ← free]
  exact Frame.forwards_afterRebuild_iff

/-- A signature with a receiver and these parameters of type `u8`. -/
def byteSignature (name : String) (patterns : List Pattern) : Signature :=
  ⟨false, false, false, none, name, .none,
    .receiver ⟨[], some none, false, none⟩ ::
      patterns.map fun pattern => .typed [] pattern (.named "u8"),
    false, none, none⟩

/-- The method that such a signature becomes. -/
def byteMethod (name : String) (params : List String) : Method :=
  ⟨name, .shared, "&self", params.map fun param => ⟨param, .named "u8", .value⟩, none, .none, false⟩

/-- A parameter without a name between two others, one of which is called like a number that is not
used. -/
def blendSignature : Signature :=
  byteSignature "blend" [.binding "by" [.word "by"], .other [.word "_"],
    .binding "arg0" [.word "arg0"]]

/-- A parameter without a name after one that is called by its number. -/
def mixSignature : Signature :=
  byteSignature "mix" [.binding "arg1" [.word "arg1"], .other [.word "_"]]

namespace Method

/-- Three parameters that stay apart. -/
theorem ofSignature_parameters_blend :
    ofSignature blendSignature = .ok (byteMethod "blend" ["by", "arg1", "arg0"]) ∧
      blendSignature.givenNames.Nodup ∧
      ∀ (m : MergedValue Nat) (arguments : List Nat) (rebuilt : Rebuilt Nat),
        (Frame.afterRebuild .shared ["by", "arg1", "arg0"] m arguments rebuilt).Forwards
          ["by", "arg1", "arg0"] := by
  have made : ofSignature blendSignature =
      .ok (byteMethod "blend" ["by", "arg1", "arg0"]) := rfl
  have given : blendSignature.givenNames.Nodup := by decide
  obtain ⟨distinct, -, emitted⟩ := ofSignature_parameters made given
  have apart := distinct.mp (by decide)
  obtain ⟨-, arms⟩ := emitted Generation.shapeMerged.conversionNames "IShape" ["Circle"]
  obtain ⟨call, makes, -, forwards⟩ := arms _ List.mem_cons_self
  cases makes
  exact ⟨made, given, fun m arguments rebuilt =>
    (forwards m arguments rebuilt).mpr ⟨apart, by decide⟩⟩

/-- Two parameters get one name. -/
theorem ofSignature_parameters_mix :
    mixSignature.givenNames.Nodup ∧
      ∃ method, ofSignature mixSignature = .ok method ∧
        ¬ (method.params.map Param.name).Nodup ∧
        method.headText = "fn mix(&self, arg1: u8, arg1: u8)" := by
  refine ⟨by decide, byteMethod "mix" ["arg1", "arg1"], rfl, by decide, by decide⟩

end Method

end VariantMerge
