import VariantMerge.Proofs.Conversion.RoundTrip
import VariantMerge.Proofs.Dispatch.Meaning

/-!
# Dispatch is equivalent to calling the variant

A merged value that holds a variant behaves as the variant does: the methods that are emitted for it yield
what the variant's own method yields on the variant that the slots hold, leave the same contents in the
arguments, and, if they take the value exclusively, leave a merged value from which the variant is
read as its own method left it (`Generation.Generates.dispatch_equivalence`). Each step of an arm
has one lemma for what it does to the state, `Frame.call?_afterRebuild` for the call among them, and
an arm is run step by step, once for exclusive receivers (`Convertible.runSteps_exclusive`) and once
for all others (`Convertible.runSteps_kept`).
-/

namespace VariantMerge

variable {α : Type*}

namespace Frame

/-! ## Parameters -/

/-- The parameters are in scope under their names. -/
theorem parameters_names (names : List String) : (parameters names).map Prod.fst = names := by
  rw [parameters, List.map_map]
  exact List.zipIdx_map_fst 0 names

/-- The contents after each position has been replaced once, in order. -/
theorem replace_range' (before contents values : List α)
    (lengths : values.length = contents.length) :
    replace (before ++ contents) (List.range' before.length contents.length) values =
      before ++ values := by
  induction contents generalizing before values with
  | nil =>
      rw [List.length_eq_zero_iff.mp lengths]
      simp [replace]
  | cons content contents ih =>
      obtain ⟨value, rest, rfl⟩ := List.exists_cons_of_length_eq_add_one lengths
      rw [List.length_cons, List.range'_succ, replace]
      have replaced : (before ++ content :: contents).set before.length value =
          (before ++ [value]) ++ contents := by
        simp
      have later := ih (before ++ [value]) rest (Nat.succ.inj lengths)
      rw [List.length_append, List.length_singleton] at later
      rw [replaced, later, List.append_assoc, List.singleton_append]

/-- Each position has its content. -/
theorem contents_eq (contents : List α) :
    (List.range' 0 contents.length).mapM (fun position => contents[position]?) =
      some contents := by
  conv_rhs => rw [← List.zipIdx_map_fst 0 contents]
  rw [← List.zipIdx_map_snd 0 contents, List.mapM_map]
  apply mapM_eq_some_map
  rintro ⟨content, position⟩ member
  exact List.mk_mem_zipIdx_iff_getElem?.mp member

/-! ## Calls -/

/-- The state when an instance was rebuilt. -/
def afterRebuild (receiver : ReceiverKind) (names : List String) (m : MergedValue α)
    (arguments : List α) (rebuilt : Rebuilt α) : Frame α :=
  ⟨receiver, m, arguments, some rebuilt, none,
    (Dispatch.instanceName, .rebuilt) :: parameters names⟩

variable {names : List String} {rebuilt : Rebuilt α} {receiver : ReceiverKind}
  {m : MergedValue α} {arguments : List α}

/-- The instance is in scope once it was rebuilt. -/
theorem instance?_afterRebuild :
    (afterRebuild receiver names m arguments rebuilt).instance? = some rebuilt := by
  rw [instance?, afterRebuild, List.lookup_cons_self]

/-- The name of a parameter stands for its position, since the instance does not hide it. -/
theorem position?_afterRebuild (distinct : names.Nodup) (free : Dispatch.instanceName ∉ names)
    {name : String} {position : Nat} (member : (name, position) ∈ names.zipIdx) :
    (afterRebuild receiver names m arguments rebuilt).position? name = some position := by
  have different : (((Dispatch.instanceName, Local.rebuilt) :: parameters names).map
      Prod.fst).Nodup := by
    rw [List.map_cons, parameters_names, List.nodup_cons]
    exact ⟨free, distinct⟩
  have inScope : (name, Local.parameter position) ∈
      (Dispatch.instanceName, Local.rebuilt) :: parameters names :=
    List.mem_cons_of_mem _ (List.mem_map_of_mem member)
  rw [position?, afterRebuild, (lookup_eq_some_iff_mem different).mpr inScope]

/-- The names of the parameters stand for their positions in order. -/
theorem positions_afterRebuild (distinct : names.Nodup)
    (free : Dispatch.instanceName ∉ names) :
    names.mapM (afterRebuild receiver names m arguments rebuilt).position? =
      some (List.range' 0 names.length) := by
  conv_lhs => arg 2; rw [← List.zipIdx_map_fst 0 names]
  rw [List.mapM_map, ← List.zipIdx_map_snd 0 names]
  apply mapM_eq_some_map
  rintro ⟨name, position⟩ member
  exact position?_afterRebuild distinct free member

/-- **The call.** The variant's method gets the rebuilt instance and the arguments, and what it
leaves of these is what the parameters hold afterwards. -/
theorem call?_afterRebuild (distinct : names.Nodup) (free : Dispatch.instanceName ∉ names)
    (arity : arguments.length = names.length) (methods : VariantMethods α) {call : Call}
    (same : rebuilt.variant = call.variant)
    (mutable : call.receiver = .exclusive → rebuilt.isMut) (passed : call.arguments = names)
    {outcome : CallOutcome α} (ran : methods.run call.target rebuilt.fields arguments = outcome) :
    (afterRebuild receiver names m arguments rebuilt).call? methods call =
      some (outcome.result, afterRebuild receiver names m outcome.arguments
        (if call.receiver = .exclusive then { rebuilt with fields := outcome.fields }
        else rebuilt)) := by
  have values := contents_eq arguments
  rw [arity] at values
  have replaced : replace arguments (List.range' 0 names.length) outcome.arguments =
      outcome.arguments := by
    rw [← arity, ← ran]
    exact replace_range' [] arguments _ (methods.keepsArguments _ _ _)
  rw [call?, instance?_afterRebuild, Option.bind_some, if_pos ⟨same, mutable⟩, passed,
    positions_afterRebuild distinct free, Option.bind_some]
  change ((List.range' 0 names.length).mapM fun position => arguments[position]?).map _ = _
  rw [values, Option.map_some, ran]
  change some (outcome.result, Frame.mk receiver m
    (replace arguments (List.range' 0 names.length) outcome.arguments) _ none _) = _
  rw [replaced]
  rfl

end Frame

namespace Convertible

variable {config : Config} {merged : MergedType} {variant : Variant} {x : Record α}
  {m : MergedValue α}

/-! ## Rebuilding and writing back -/

/-- The conversion is read from its code. -/
theorem conversionOf?_eq (convertible : Convertible config merged variant)
    (named : merged.IsNamed) :
    merged.conversionOf? config variant.name =
      some (merged.conversion config variant, variant.fields.map VariantField.name) := by
  rw [MergedType.conversionOf?,
    find?_eq_some_of_mem convertible.layout.distinct convertible.member, Option.bind_some,
    MergedType.readConversion?_code (named.conversion convertible), Option.map_some]

/-- The routine that is read for a variant rebuilds what the slots hold. -/
theorem rebuild?_eq (convertible : Convertible config merged variant) (named : merged.IsNamed)
    (fields : x.HasFields (variant.fields.map VariantField.name))
    (stored : m.Stores merged variant.name x) :
    merged.rebuild? config variant.name merged.conversionNames.fromMerged m = some x := by
  rw [MergedType.rebuild?, convertible.conversionOf?_eq named, Option.bind_some]
  exact (if_pos rfl).trans (convertible.runFromMerged_eq fields stored)

/-- The routine that is read for a variant writes its fields and its tag. -/
theorem writeBack?_eq (convertible : Convertible config merged variant) (named : merged.IsNamed)
    (fields : x.HasFields (variant.fields.map VariantField.name)) (valid : m.IsOf merged config) :
    merged.writeBack? config variant.name merged.conversionNames.writeInto x m =
      some (Record.override m (merged.assigned config variant x)) := by
  rw [MergedType.writeBack?, convertible.conversionOf?_eq named, Option.bind_some]
  exact (if_pos rfl).trans (convertible.runWriteInto_eq fields valid)

/-! ## Steps -/

variable {names : List String} {arguments : List α} {methods : VariantMethods α}

/-- A statement is run before the steps that follow it. -/
theorem runSteps_cons {step next : ArmStep} {rest : List ArmStep} {frame after : Frame α}
    (ran : step.run merged config methods frame = some (none, after)) :
    runSteps merged config methods (step :: next :: rest) frame =
      runSteps merged config methods (next :: rest) after := by
  rw [runSteps, ran]

/-- A call whose result is bound to a name. -/
theorem run_bindResult {call : Call} {frame after : Frame α} {result : α}
    (called : frame.call? methods call = some (result, after)) :
    (ArmStep.bindResult call).run merged config methods frame =
      some (none, { after with
        result := some result
        locals := (Dispatch.resultName, .held) :: after.locals }) := by
  rw [ArmStep.run, called]
  rfl

/-- A call as a statement. -/
theorem run_perform {call : Call} {frame after : Frame α} {result : α}
    (called : frame.call? methods call = some (result, after)) :
    (ArmStep.perform call).run merged config methods frame = some (none, after) := by
  rw [ArmStep.run, called]
  rfl

/-- The first step rebuilds the instance, unless it would move what is still needed. -/
theorem run_rebuild (convertible : Convertible config merged variant) (named : merged.IsNamed)
    (fields : x.HasFields (variant.fields.map VariantField.name))
    (stored : m.Stores merged variant.name x) {receiver : ReceiverKind} {fromCopy : Bool}
    (reachable : fromCopy ∨ receiver ≠ .value) (isMut : Bool) :
    (ArmStep.rebuild variant.name merged.conversionNames.fromMerged isMut fromCopy).run merged
        config methods (.start receiver names m arguments) =
      some (none, .afterRebuild receiver names m arguments ⟨variant.name, isMut, x⟩) := by
  change (if fromCopy = true ∨ receiver ≠ .value then _ else none) = _
  rw [if_pos reachable]
  change (merged.rebuild? config variant.name _ m).map _ = _
  rw [convertible.rebuild?_eq named fields stored]
  rfl

/-- An exclusive receiver gets the instance back as it is now. -/
theorem run_writeBack (convertible : Convertible config merged variant) (named : merged.IsNamed)
    {frame : Frame α} {rebuilt : Rebuilt α} (exclusive : frame.receiver = .exclusive)
    (here : frame.instance? = some rebuilt) (same : rebuilt.variant = variant.name)
    (fields : rebuilt.fields.HasFields (variant.fields.map VariantField.name))
    (valid : frame.merged.IsOf merged config) :
    (ArmStep.writeBack merged.conversionNames.writeInto).run merged config methods frame =
      some (none, { frame with
        merged := Record.override frame.merged
          (merged.assigned config variant rebuilt.fields) }) := by
  rw [ArmStep.run, if_pos exclusive, here, Option.bind_some, same,
    convertible.writeBack?_eq named fields valid]
  rfl

/-! ## Arms -/

/-- A method leaves an instance with the fields that it had. -/
theorem hasFields_run (methods : VariantMethods α) (target : CallTarget) (arguments : List α)
    {declared : List String} (fields : x.HasFields declared) :
    (methods.run target x arguments).fields.HasFields declared := by
  intro name
  rw [methods.keepsFields]
  exact fields name

variable {method : Method} (methods) (interface : String)

/-- **The arm of an exclusive receiver.** The instance is written back as the call left it, and the
result is yielded if there is one. -/
theorem runSteps_exclusive (convertible : Convertible config merged variant)
    (named : merged.IsNamed) (fields : x.HasFields (variant.fields.map VariantField.name))
    (stored : m.Stores merged variant.name x) (valid : m.IsOf merged config)
    (distinct : (method.params.map Param.name).Nodup)
    (free : Dispatch.instanceName ∉ method.params.map Param.name)
    (arity : arguments.length = (method.params.map Param.name).length)
    (exclusive : method.receiver = .exclusive) :
    let outcome := methods.run (method.callOn interface variant.name).target x arguments
    ∃ frame, runSteps merged config methods
        (method.stepsFor merged.conversionNames interface variant.name)
        (.start method.receiver (method.params.map Param.name) m arguments) =
          some (if method.returnsValue then some outcome.result else none, frame) ∧
      frame.arguments = outcome.arguments ∧
      frame.merged = Record.override m (merged.assigned config variant outcome.fields) := by
  intro outcome
  set names := method.params.map Param.name
  have rebuilt : (ArmStep.rebuild variant.name merged.conversionNames.fromMerged true false).run
      merged config methods (.start method.receiver names m arguments) =
        some (none, .afterRebuild method.receiver names m arguments ⟨variant.name, true, x⟩) :=
    convertible.run_rebuild named fields stored (.inr (by simp [exclusive])) true
  have called : Frame.call? methods (method.callOn interface variant.name)
      (.afterRebuild method.receiver names m arguments ⟨variant.name, true, x⟩) =
        some (outcome.result, .afterRebuild method.receiver names m outcome.arguments
          ⟨variant.name, true, outcome.fields⟩) := by
    rw [Frame.call?_afterRebuild distinct free arity methods rfl (fun _ => rfl) rfl rfl,
      if_pos (show (method.callOn interface variant.name).receiver = .exclusive from exclusive)]
  have left : outcome.fields.HasFields (variant.fields.map VariantField.name) :=
    hasFields_run methods _ arguments fields
  cases returns : method.returnsValue with
  | true =>
      have steps : method.stepsFor merged.conversionNames interface variant.name =
          [.rebuild variant.name merged.conversionNames.fromMerged true false,
            .bindResult (method.callOn interface variant.name),
            .writeBack merged.conversionNames.writeInto, .yieldResult] := by
        simp only [Method.stepsFor, exclusive, returns]
      rw [steps, runSteps_cons rebuilt, runSteps_cons (run_bindResult called),
        runSteps_cons (convertible.run_writeBack named exclusive rfl rfl left valid)]
      exact ⟨_, rfl, rfl, rfl⟩
  | false =>
      have steps : method.stepsFor merged.conversionNames interface variant.name =
          [.rebuild variant.name merged.conversionNames.fromMerged true false,
            .perform (method.callOn interface variant.name),
            .writeBack merged.conversionNames.writeInto] := by
        simp only [Method.stepsFor, exclusive, returns]
      rw [steps, runSteps_cons rebuilt, runSteps_cons (run_perform called), runSteps,
        convertible.run_writeBack named exclusive Frame.instance?_afterRebuild rfl left valid]
      exact ⟨_, rfl, rfl, rfl⟩

/-- **The arm of any other receiver.** The result of the call is yielded, and the merged value
stays. -/
theorem runSteps_kept (convertible : Convertible config merged variant)
    (named : merged.IsNamed) (fields : x.HasFields (variant.fields.map VariantField.name))
    (stored : m.Stores merged variant.name x)
    (distinct : (method.params.map Param.name).Nodup)
    (free : Dispatch.instanceName ∉ method.params.map Param.name)
    (arity : arguments.length = (method.params.map Param.name).length)
    (kept : method.receiver ≠ .exclusive) :
    let outcome := methods.run (method.callOn interface variant.name).target x arguments
    ∃ frame, runSteps merged config methods
        (method.stepsFor merged.conversionNames interface variant.name)
        (.start method.receiver (method.params.map Param.name) m arguments) =
          some (some outcome.result, frame) ∧
      frame.arguments = outcome.arguments ∧ frame.merged = m := by
  intro outcome
  set names := method.params.map Param.name
  obtain ⟨fromCopy, reachable, steps⟩ : ∃ fromCopy : Bool,
      (fromCopy = true ∨ method.receiver ≠ .value) ∧
        method.stepsFor merged.conversionNames interface variant.name =
          [.rebuild variant.name merged.conversionNames.fromMerged false fromCopy,
            .yieldCall (method.callOn interface variant.name)] := by
    cases receiver : method.receiver with
    | shared => exact ⟨false, .inr nofun, by simp only [Method.stepsFor, receiver]⟩
    | exclusive => exact absurd receiver kept
    | value => exact ⟨true, .inl rfl, by simp only [Method.stepsFor, receiver]⟩
  have rebuilt : (ArmStep.rebuild variant.name merged.conversionNames.fromMerged false
      fromCopy).run merged config methods (.start method.receiver names m arguments) =
        some (none, .afterRebuild method.receiver names m arguments ⟨variant.name, false, x⟩) :=
    convertible.run_rebuild named fields stored reachable false
  have called : Frame.call? methods (method.callOn interface variant.name)
      (.afterRebuild method.receiver names m arguments ⟨variant.name, false, x⟩) =
        some (outcome.result, .afterRebuild method.receiver names m outcome.arguments
          ⟨variant.name, false, x⟩) := by
    have unchanged : (method.callOn interface variant.name).receiver ≠ .exclusive := kept
    rw [Frame.call?_afterRebuild distinct free arity methods rfl (fun taken => absurd taken kept)
      rfl rfl, if_neg unchanged]
  rw [steps, runSteps_cons rebuilt, runSteps, ArmStep.run, called]
  exact ⟨_, rfl, rfl, rfl⟩

end Convertible

namespace Generation

namespace Generates

/-- Every method of the hierarchy has a dispatching one in the code of its trait's implementation. -/
theorem exists_dispatch (config : Config) {merged : MergedType} {declared : TraitMembers}
    (inHierarchy : declared ∈ merged.members.traits) {member : Member}
    (listed : member ∈ declared.members) {method : Method} (accessor : method ∈ member.methods) :
    ∃ functions, Code.scope ("impl " ++ declared.name ++ " for " ++ merged.name) functions ∈
        merged.dispatchCode config ∧
      (method.dispatch merged.conversionNames declared.name
        (merged.variants.map Variant.name)).code config.typeIdField merged.typeIdName ∈
          functions := by
  let impl : DispatchImpl := ⟨declared.name, merged.name,
    (declared.members.flatMap Member.methods).map fun method =>
      method.dispatch merged.conversionNames declared.name (merged.variants.map Variant.name)⟩
  have present : impl ∈ merged.dispatchImpls := List.mem_map_of_mem inHierarchy
  have dispatched : method.dispatch merged.conversionNames declared.name
      (merged.variants.map Variant.name) ∈ impl.methods :=
    List.mem_map_of_mem (List.mem_flatMap.mpr ⟨member, listed, accessor⟩)
  have emitted : (method.dispatch merged.conversionNames declared.name
      (merged.variants.map Variant.name)).code config.typeIdField merged.typeIdName ∈
        impl.methods.map fun method => method.code config.typeIdField merged.typeIdName :=
    List.mem_map.mpr ⟨_, dispatched, rfl⟩
  refine ⟨_, List.mem_flatMap.mpr ⟨impl, present, ?_⟩, Code.mem_spaced emitted⟩
  exact List.mem_cons_of_mem _ (List.mem_cons_of_mem _ List.mem_cons_self)

variable {config : Config} {merged : MergedType}

/-- An emitted method called on a merged value that holds a variant runs that variant's arm. -/
theorem run_dispatch {variant : Variant} (convertible : Convertible config merged variant)
    (named : merged.IsNamed) {declared : TraitMembers}
    (inHierarchy : declared ∈ merged.members.traits) {method : Method}
    (listed : method ∈ declared.members.flatMap Member.methods) {methods : VariantMethods α}
    {m : MergedValue α} (tagged : m config.typeIdField = some (.tag (some variant.name)))
    {arguments : List α} {result : Option α} {frame : Frame α}
    (ran : runSteps merged config methods
      (method.stepsFor merged.conversionNames declared.name variant.name)
      (.start method.receiver (method.params.map Param.name) m arguments) =
        some (result, frame)) :
    merged.runMethod config methods
        ((method.dispatch merged.conversionNames declared.name
          (merged.variants.map Variant.name)).code config.typeIdField merged.typeIdName)
        method.receiver (method.params.map Param.name) m arguments =
      some ⟨frame.merged, frame.arguments, result⟩ := by
  let emitted := method.dispatch merged.conversionNames declared.name
    (merged.variants.map Variant.name)
  let arm : Arm :=
    ⟨variant.name, method.stepsFor merged.conversionNames declared.name variant.name⟩
  have names : emitted.arms.map Arm.variant = merged.variants.map Variant.name := by
    simp only [emitted, Method.dispatch, List.map_map, Function.comp_def]
  have member : arm ∈ emitted.arms :=
    List.mem_map_of_mem (List.mem_map_of_mem convertible.member)
  have found : emitted.arms.find? (·.variant == variant.name) = some arm :=
    find?_eq_some_of_mem (names ▸ convertible.layout.distinct) member
  have read : DispatchMethod.ofCode? merged.typeIdName
      (emitted.code config.typeIdField merged.typeIdName) = some (config.typeIdField, emitted) :=
    DispatchMethod.ofCode?_code (named.dispatch inHierarchy listed) _ _
  rw [MergedType.runMethod, read, Option.bind_some]
  change emitted.run merged config methods config.typeIdField _ _ m arguments = _
  rw [DispatchMethod.run, tagged]
  change (emitted.arms.find? (·.variant == variant.name)).bind _ = _
  rw [found, Option.bind_some, ran, Option.map_some]

variable {units : List SourceUnit} {interface : Interface} {sources : List GeneratedSource}

/-- **Dispatch equivalence.** Let the units be read from texts. The code for every method of a generated
type's hierarchy is part of a source. What is read from it, called on a merged value that holds a variant,
runs that variant's own method on the variant that the slots hold: with the same result, if there is one,
and the same contents of the arguments afterwards. What is left is a merged value again. If the method
takes its value exclusively, the variant is read from it as its own method left it, and the discriminant
and the slots of other variants are as they were; otherwise all of it is as it was. -/
theorem dispatch_equivalence (read : ∀ unit ∈ units, unit.IsRead)
    (scanned : interface ∈ (ScanResult.ofUnits config.marker units).interfaces)
    (generated : Generates config (ScanResult.ofUnits config.marker units) interface merged sources)
    {declared : TraitMembers} (inHierarchy : declared ∈ merged.members.traits)
    {member : Member} (listed : member ∈ declared.members)
    {method : Method} (accessor : method ∈ member.methods)
    {variant : Variant} (isVariant : variant ∈ merged.variants)
    (distinctFields : (variant.fields.map VariantField.name).Nodup)
    (distinctParams : (method.params.map Param.name).Nodup)
    (free : Dispatch.instanceName ∉ method.params.map Param.name)
    (untagged : config.typeIdField ∉ merged.layout.slots.map Slot.name)
    (methods : VariantMethods α) {m : MergedValue α} (valid : m.IsOf merged config)
    (tagged : m config.typeIdField = some (.tag (some variant.name)))
    {arguments : List α} (arity : arguments.length = method.params.length) :
    let fieldNames := variant.fields.map VariantField.name
    (∃ source ∈ sources, Code.text config.indent
      (merged.declarationCode config ++ merged.dispatchCode config) = .ok source.text) ∧
    ∃ functions body routines, Code.scope ("impl " ++ declared.name ++ " for " ++ merged.name)
        functions ∈ merged.dispatchCode config ∧
      Code.scope method.headText body ∈ functions ∧
      merged.readConversion? config (merged.conversion config variant).code = some routines ∧
      ∃ x after, routines.runFromMerged fieldNames m = some x ∧
        merged.runMethod config methods (.scope method.headText body) method.receiver
          (method.params.map Param.name) m arguments = some after ∧
        let direct := methods.run (method.callOn declared.name variant.name).target x arguments
        (method.returnsValue → after.result = some direct.result) ∧
        after.arguments = direct.arguments ∧
        after.merged.IsOf merged config ∧
        (method.receiver = .exclusive →
          routines.runFromMerged fieldNames after.merged = some direct.fields ∧
          after.merged config.typeIdField = m config.typeIdField ∧
          ∀ slot ∈ merged.layout.slots, ¬ merged.layout.Claims variant.name slot →
            after.merged slot.name = m slot.name) ∧
        (method.receiver ≠ .exclusive → after.merged = m) := by
  intro fieldNames
  have named := generated.isNamed read scanned
  have convertible := Convertible.of_generates generated isVariant distinctFields untagged
  have readBack := MergedType.readConversion?_code (named.conversion convertible)
  have dispatched : method ∈ declared.members.flatMap Member.methods :=
    List.mem_flatMap.mpr ⟨member, listed, accessor⟩
  obtain ⟨functions, inCode, inBlock⟩ := exists_dispatch config inHierarchy listed accessor
  obtain ⟨x, fields, stored⟩ := convertible.exists_stored valid
  have count : arguments.length = (method.params.map Param.name).length := by
    rw [arity, List.length_map]
  have rebuilt := convertible.runFromMerged_eq fields stored
  refine ⟨generated.exists_mergedSource, functions, _, _, inCode, inBlock, readBack, x, ?_⟩
  by_cases exclusive : method.receiver = .exclusive
  · obtain ⟨frame, ran, passed, written⟩ :=
      convertible.runSteps_exclusive methods declared.name named fields stored valid distinctParams
        free count exclusive
    have left := Convertible.hasFields_run methods
      (method.callOn declared.name variant.name).target arguments fields
    refine ⟨_, rebuilt, run_dispatch convertible named inHierarchy dispatched tagged ran, ?_, passed,
      ?_, ?_, absurd exclusive⟩
    · intro returns
      rw [if_pos returns]
    · rw [written]
      exact convertible.override_isOf left valid
    · intro _
      simp only [written, tagged]
      exact ⟨convertible.runFromMerged_override left, convertible.override_tag left,
        fun slot present unclaimed => convertible.override_unclaimed left present unclaimed⟩
  · obtain ⟨frame, ran, passed, same⟩ :=
      convertible.runSteps_kept methods declared.name named fields stored distinctParams free count
        exclusive
    exact ⟨_, rebuilt, run_dispatch convertible named inHierarchy dispatched tagged ran,
      fun _ => rfl, passed, same ▸ valid, fun taken => absurd taken exclusive, fun _ => same⟩

end Generates

/-- Methods that add their first argument to every field, set the second one and return the
first. -/
def addingMethods : VariantMethods Nat where
  run _ fields arguments :=
    ⟨fun name => (fields name).map (· + arguments.headD 0), arguments.set 1 1,
      arguments.headD 0⟩
  keepsFields := by
    intro target fields arguments name
    exact Option.isSome_map
  keepsArguments := by
    intro target fields arguments
    exact List.length_set

/-- A circle that grows. -/
theorem dispatch_equivalence_circle :
    ∃ units interface merged sources variant,
      (∀ unit ∈ units, SourceUnit.IsRead unit) ∧
      interface ∈ (ScanResult.ofUnits Config.default.marker units).interfaces ∧
      Generates .default (ScanResult.ofUnits Config.default.marker units) interface merged
        sources ∧
      variant ∈ merged.variants ∧ (circleMerged 9).IsOf merged .default ∧
      ∃ (method : Method) (body : List Code) (routines : Conversion) (x : Record Nat)
          (after : DispatchOutcome Nat),
        merged.readConversion? .default (merged.conversion .default variant).code =
          some routines ∧
        routines.runFromMerged ["radius"] (circleMerged 9) = some x ∧
        merged.runMethod .default addingMethods (.scope method.headText body) .exclusive
          ["by", "hit"] (circleMerged 9) [2, 0] = some after ∧
        after.result = some 2 ∧ after.arguments = [2, 1] ∧
        routines.runFromMerged ["radius"] after.merged = some fun name => (x name).map (· + 2) := by
  obtain ⟨units, interface, merged, sources, read, scanned, generated, outlined⟩ := shapes_read
  obtain ⟨circle, isVariant, name, fieldNames⟩ :=
    exists_variant outlined (show ("Circle", ["radius"]) ∈ shapesOutline.variants by decide)
  obtain ⟨declared, inHierarchy, member, listed, grow, accessor, receiver, params, returns⟩ :=
    shapes_grow outlined
  have distinctFields : (circle.fields.map VariantField.name).Nodup := by
    rw [fieldNames]
    decide
  have distinctParams : (grow.params.map Param.name).Nodup := by
    rw [params]
    decide
  have free : Dispatch.instanceName ∉ grow.params.map Param.name := by
    rw [params]
    decide
  have untagged : Config.default.typeIdField ∉ merged.layout.slots.map Slot.name := by
    rw [shapes_slots outlined]
    decide
  have valid := circleMerged_isOf outlined 9
  have tagged : circleMerged 9 Config.default.typeIdField = some (.tag (some circle.name)) := by
    rw [name]
    rfl
  have arity : [2, 0].length = grow.params.length := by
    rw [← List.length_map Param.name, params]
    rfl
  obtain ⟨-, functions, body, routines, -, -, readBack, x, after, rebuilt, ran, result, passed, -,
      exclusive, -⟩ :=
    generated.dispatch_equivalence read scanned inHierarchy listed accessor isVariant
      distinctFields distinctParams free untagged addingMethods valid tagged arity
  rw [receiver, params] at ran
  rw [fieldNames] at rebuilt exclusive
  exact ⟨units, interface, merged, sources, circle, read, scanned, generated, isVariant, valid, grow,
    body, routines, x, after, readBack, rebuilt, ran, result returns, passed, (exclusive receiver).1⟩

end Generation

end VariantMerge
