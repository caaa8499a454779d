import VariantMerge.Proofs.Generation.Success

/-!
# Failures are attributed to their interface

Whatever goes wrong while an interface is generated, the failure names that interface, or one of the
structs that implement it, or says that the indentation cannot be built
(`Generation.ofInterface_failsAbout`), also when it comes from a trait that the interface is bounded
by. So the diagnostic of an interface always names it (`Generation.diagnosticFor_interface`). No other
failure can come of an interface; in particular none that says that the generator is broken.
-/

namespace VariantMerge

/-- The failures that can come of an interface if the code is indented like this. -/
inductive Failure.IsAbout (interface : String) (indent : Indent) : Failure → Prop
  | named {failure : Failure} (named : failure.interface? = some interface) :
    IsAbout interface indent failure
  | variant (name : String) (reason : Reason) :
    IsAbout interface indent (.unsupportedVariant name reason)
  | indent (oversized : indent.unit? = none) : IsAbout interface indent .oversizedIndent

/-- A failure that comes of an interface names no other one. -/
theorem Failure.IsAbout.interface_eq {interface named : String} {indent : Indent}
    {failure : Failure} (about : failure.IsAbout interface indent)
    (same : failure.interface? = some named) : named = interface := by
  cases about with
  | named own =>
      rw [own] at same
      exact (Option.some.inj same).symm
  | variant | indent => cases same

/-- The failures that name an interface. -/
def Failure.Names (interface : String) (failure : Failure) : Prop :=
  failure.interface? = some interface

/-- If there is a failure, it is one of these. -/
def FailsOnly (about : Failure → Prop) (result : Except Failure α) : Prop :=
  ∀ failure, result = .error failure → about failure

namespace FailsOnly

variable {about : Failure → Prop}

/-- What succeeds does not fail. -/
theorem ok (value : α) : FailsOnly about (.ok value : Except Failure α) :=
  fun _ failed => nomatch failed

/-- A failure is about what it is about. -/
theorem error {failure : Failure} (holds : about failure) :
    FailsOnly about (.error failure : Except Failure α) :=
  fun _ failed => Except.error.inj failed ▸ holds

/-- Steps one after the other fail only about what each of them does. -/
theorem bind {result : Except Failure α} {next : α → Except Failure β}
    (first : FailsOnly about result) (second : ∀ value, FailsOnly about (next value)) :
    FailsOnly about (result.bind next) := by
  cases result with
  | error failure => exact error (first failure rfl)
  | ok value => exact second value

/-- What is made of a result fails as the result does. -/
theorem map {result : Except Failure α} {f : α → β} (first : FailsOnly about result) :
    FailsOnly about (result.map f) := by
  cases result with
  | error failure => exact error (first failure rfl)
  | ok value => exact ok _

/-- A reason that becomes a failure. -/
theorem mapError {result : Except Reason α} {blame : Reason → Failure}
    (blames : ∀ reason, about (blame reason)) : FailsOnly about (result.mapError blame) := by
  cases result with
  | error reason => exact error (blames reason)
  | ok value => exact ok _

/-- Steps over a list fail only about what each of them does. -/
theorem foldlM {step : β → α → Except Failure β}
    (each : ∀ state value, FailsOnly about (step state value)) (values : List α)
    (state : β) : FailsOnly about (values.foldlM step state) := by
  induction values generalizing state with
  | nil => exact ok _
  | cons value rest ih =>
      rw [List.foldlM_cons]
      exact bind (each state value) ih

/-- What is made of a list fails only about what is made of each of it. -/
theorem mapM {f : α → Except Failure β} (each : ∀ value, FailsOnly about (f value))
    (values : List α) : FailsOnly about (values.mapM f) := by
  induction values with
  | nil => exact ok _
  | cons value rest ih =>
      rw [List.mapM_cons]
      exact bind (each value) fun _ => bind ih fun _ => ok _

/-- A failure may be about more than is asked. -/
theorem mono {result : Except Failure α} {wider : Failure → Prop}
    (weakens : ∀ failure, about failure → wider failure) (fails : FailsOnly about result) :
    FailsOnly wider result :=
  fun failure failed => weakens failure (fails failure failed)

end FailsOnly

/-- If there is a failure, it is one that can come of the interface. -/
abbrev FailsAbout (interface : String) (indent : Indent) (result : Except Failure α) : Prop :=
  FailsOnly (Failure.IsAbout interface indent) result

/-- A failure that names the interface is about it. -/
theorem FailsOnly.isAbout {interface : String} {indent : Indent} {result : Except Failure α}
    (fails : FailsOnly (Failure.Names interface) result) : FailsAbout interface indent result :=
  fails.mono fun _ => .named

/-- What a fold over a pass comes to does not depend on its events. -/
theorem Pass.outcome_foldlM (step : β → α → Pass β) (values : List α) (state : β) :
    (values.foldlM step state).outcome =
      values.foldlM (fun state value => (step state value).outcome) state := by
  induction values generalizing state with
  | nil => rfl
  | cons value rest ih =>
      rw [List.foldlM_cons, outcome_bind, List.foldlM_cons]
      exact congrArg _ (funext ih)

/-! ## Members -/

namespace Member

/-- A property fails with the name of its interface, if its change does. -/
theorem updateProperty_failsNaming {interface : String} {change : Property → Except Failure Property}
    (changes : ∀ property, FailsOnly (Failure.Names interface) (change property)) (name : String)
    (ty : Ty) (members : List Member) :
    FailsOnly (Failure.Names interface) (updateProperty name ty change members) := by
  induction members with
  | nil => exact (changes _).map
  | cons member rest ih =>
      cases member with
      | method m => exact ih.map
      | property existing =>
          rw [updateProperty]
          split
          · exact (changes existing).map
          · exact ih.map

/-- A getter has not lost the type that it returns. -/
theorem accessor?_ne_lostOutput (method : Method) (name : String) :
    Property.accessor? method ≠ some (.getter name none) := by
  unfold Property.accessor?
  split
  next getter =>
    intro lost
    obtain ⟨-, output⟩ := Property.Accessor.getter.inj (Option.some.inj lost)
    simp [Method.returnsValue, output] at getter
  next => split <;> simp

/-- An accessor that does not fit fails with the name of the interface. -/
theorem addAccessor_failsNaming (interface : String) (members : List Member) (method : Method) :
    FailsOnly (Failure.Names interface) (addAccessor interface members method) := by
  unfold addAccessor
  split
  · refine updateProperty_failsNaming (fun _ => ?_) _ _ _
    exact .mapError fun _ => rfl
  next lost => exact absurd lost (accessor?_ne_lostOutput method _)
  · refine updateProperty_failsNaming (fun _ => ?_) _ _ _
    exact .mapError fun _ => rfl
  · exact .error (rfl)

/-- A method that cannot be collected fails with the name of the interface. -/
theorem addMethod_failsNaming (interface : String) (members : List Member)
    (attributes : List Attribute) (signature : Signature) :
    FailsOnly (Failure.Names interface) (addMethod interface members attributes signature) := by
  refine .bind (.mapError fun _ => rfl) fun method => ?_
  split
  · exact addAccessor_failsNaming interface members method
  · exact .ok _

end Member

namespace TraitMembers

/-- An entry that cannot be collected fails with the name of the interface. -/
theorem addEntry_failsNaming (interface : String) (members : List Member) (entry : TraitEntry) :
    FailsOnly (Failure.Names interface) (addEntry interface members entry).outcome := by
  cases entry with
  | method attributes signature body =>
      exact Member.addMethod_failsNaming interface members attributes signature
  | assocType name tokens => exact .error (rfl)
  | assocConst name tokens => exact .error (rfl)
  | other tokens => exact .ok _

/-- A trait that cannot be collected fails with the name of the interface. -/
theorem ofTrait_failsNaming (interface : String) (decl : TraitDecl) :
    FailsOnly (Failure.Names interface) (ofTrait interface decl).outcome := by
  unfold ofTrait
  split
  · exact .error (rfl)
  · simp only [Pass.outcome_bind, Pass.outcome_foldlM]
    exact .bind (.foldlM (addEntry_failsNaming interface) _ _) fun _ => .ok _

end TraitMembers

namespace Hierarchy

/-- Also what goes wrong in a trait that the interface is bounded by is told of the interface. -/
theorem visit_failsNaming (scan : ScanResult) (interface : String) (depth : Nat)
    (decl : TraitDecl) (found : List TraitMembers) :
    FailsOnly (Failure.Names interface) (visit scan interface depth decl found).outcome := by
  induction depth generalizing decl found with
  | zero => exact .ok _
  | succ depth ih =>
      rw [visit]
      split
      · exact .ok _
      · rw [Pass.outcome_bind]
        refine .bind (TraitMembers.ofTrait_failsNaming interface decl) fun own => ?_
        rw [Pass.outcome_foldlM]
        refine .foldlM (fun found bound => ?_) _ _
        split
        · exact .ok _
        · split
          · split
            · exact ih _ _
            · exact .error (rfl)
          · exact .ok _

/-- A hierarchy that cannot be collected fails with the name of the interface. -/
theorem collect_failsNaming (scan : ScanResult) (interface : Interface) :
    FailsOnly (Failure.Names interface.name) (collect scan interface).outcome := by
  rw [collect, Pass.outcome_bind]
  exact .bind (visit_failsNaming scan _ _ _ _) fun _ => .ok _

end Hierarchy

/-! ## Names, variants and sources -/

variable {indent : Indent}

/-- A name that no type can be derived from is that of the interface. -/
theorem MergedType.nameFor_failsAbout (interface expected : String) :
    FailsAbout interface indent (nameFor interface expected) := by
  unfold nameFor
  split
  · exact .error (.named rfl)
  · split
    · exact .ok _
    · exact .error (.named rfl)

/-- A struct that cannot be a variant fails by its own name. -/
theorem Variant.ofStruct_failsAbout (interface : String) (item : StructItem)
    (module : ModulePath) : FailsAbout interface indent (ofStruct item module) := by
  unfold ofStruct
  split
  · exact .ok _
  · exact .error (.variant _ _)

/-- Slots that cannot be laid out fail by the variant. -/
theorem SlotLayout.ofVariants_failsAbout (interface : String) (variants : List Variant) :
    FailsAbout interface indent (ofVariants variants) := by
  refine .foldlM (fun layout variant => ?_) variants empty
  unfold addVariant
  split
  · exact .error (.variant _ _)
  · exact .ok _

/-- Code that stands by itself has a text, unless its indentation cannot be built. -/
theorem Code.text_failsAbout (interface : String) (indent : Indent) (codes : List Code) :
    FailsAbout interface indent (text indent codes) := by
  cases built : indent.unit? with
  | some unit =>
      rw [text_eq_ok built]
      exact .ok _
  | none =>
      have new : SourceWriter.new indent = .error .oversizedIndent := by
        rw [SourceWriter.new, built]
      rw [text, new]
      exact .error (.indent built)

namespace Generation

variable {config : Config} {scan : ScanResult} {interface : Interface}

/-- Scattered declarations fail with the name of the interface. -/
theorem checkPlaces_failsAbout (variants : List Variant) (members : MemberSet) :
    FailsAbout interface.name config.indent (checkPlaces config interface variants members) := by
  unfold checkPlaces
  split
  · exact .error (.named rfl)
  · exact .ok _

/-- Whatever goes wrong in merging is about the interface. -/
theorem mergedType_failsAbout (name : String) (variants : List Variant) :
    FailsAbout interface.name config.indent
      (mergedType config scan interface name variants).outcome := by
  simp only [mergedType, Pass.outcome_bind, Pass.outcome_mk, Pass.outcome_ofExcept,
    Pass.outcome_tell, Pass.outcome_pure]
  refine .bind (Hierarchy.collect_failsNaming scan interface).isAbout fun members => ?_
  refine .bind (.ok _) fun _ => ?_
  refine .bind (SlotLayout.ofVariants_failsAbout _ variants) fun layout => .bind (.ok _) fun _ => ?_
  exact .bind (checkPlaces_failsAbout variants members) fun _ => .ok _

/-- Sources fail only because of the indentation. -/
theorem sourcesOf_failsAbout (about : String) (merged : MergedType) :
    FailsAbout about config.indent (sourcesOf config scan merged) := by
  refine .bind ?_ fun first => .bind (.mapM (fun variant => ?_) _) fun rest => .ok _
  · rw [mergedSource_eq]
    exact .bind (Code.text_failsAbout about _ _) fun _ => .ok _
  · rw [variantSource_eq]
    exact .bind (Code.text_failsAbout about _ _) fun _ => .ok _

/-- **Failures are attributed.** What goes wrong with an interface names it or one of its variants,
or is that the indentation cannot be built. -/
theorem ofInterface_failsAbout :
    FailsAbout interface.name config.indent (ofInterface config scan interface).outcome := by
  simp only [ofInterface, Pass.outcome_bind, Pass.outcome_ofExcept]
  refine .bind (MergedType.nameFor_failsAbout _ _) fun name => ?_
  refine .bind (.mapM (fun _ => Variant.ofStruct_failsAbout _ _ _) _) fun variants => ?_
  split
  · exact .ok _
  · simp only [Pass.outcome_bind, Pass.outcome_ofExcept, Pass.outcome_tell, Pass.outcome_pure]
    refine .bind (mergedType_failsAbout name variants) fun merged => ?_
    exact .bind (sourcesOf_failsAbout _ merged) fun _ => .bind (.ok _) fun _ => .ok _

/-- The diagnostic of a failure that is about an interface names the interface. -/
theorem diagnosticFor_interface {about : String} {indent : Indent} {failure : Failure}
    (attributed : failure.IsAbout about indent) :
    (diagnosticFor about failure).interface = some about ∧
      (diagnosticFor about failure).severity = .error := by
  unfold diagnosticFor
  split
  · exact ⟨rfl, rfl⟩
  · exact ⟨rfl, rfl⟩
  · refine ⟨?_, rfl⟩
    cases named : failure.interface? with
    | none => rfl
    | some other => exact congrArg some (attributed.interface_eq named)

end Generation

end VariantMerge
