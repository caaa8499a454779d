import VariantMerge.Proofs.Conversion.Meaning
import VariantMerge.Proofs.Conversion.Reading
import VariantMerge.Proofs.Dispatch.Reading

/-!
# What a dispatching method does

The body of an emitted method is read from its code, and the arm of a variant run as the straight-line
program that it is; the routines that it calls are read from the code of the variant's conversions. Its
locals are the parameters
and what its own steps bind, where a newer local hides an older one of the same name. The variants'
own methods are arbitrary functions of the instance and the contents of the arguments. A step has
no result where its code would be rejected: where it names a local that stands for something else,
calls a routine that the variant does not have, passes an instance exclusively that is not mutable,
or writes through a receiver that is not exclusive.
-/

namespace VariantMerge

variable {α : Type*}

/-- The method that a call names. -/
structure CallTarget where
  variant : String
  interface : String
  method : String
  generics : List String

/-- What a call leaves: the fields of the instance, the contents of the arguments, and the result,
which is the unit if none is declared. -/
structure CallOutcome (α : Type*) where
  fields : Record α
  arguments : List α
  result : α

/-- The variants' own methods. They are arbitrary, but an instance keeps the fields that it has,
and there is a content for every argument. -/
structure VariantMethods (α : Type*) where
  run : CallTarget → Record α → List α → CallOutcome α
  keepsFields : ∀ target fields arguments name,
    ((run target fields arguments).fields name).isSome = (fields name).isSome
  keepsArguments : ∀ target fields arguments,
    (run target fields arguments).arguments.length = arguments.length

def Call.target (call : Call) : CallTarget :=
  ⟨call.variant, call.interface, call.method, call.generics⟩

/-- What a local stands for: a parameter by its position, the rebuilt instance, or the result that
is held back. -/
inductive Local where
  | parameter (position : Nat)
  | rebuilt
  | held
  deriving DecidableEq

/-- An instance of a variant that was rebuilt from the slots. -/
structure Rebuilt (α : Type*) where
  variant : String
  isMut : Bool
  fields : Record α

/-- The state of a method while it runs. -/
structure Frame (α : Type*) where
  receiver : ReceiverKind
  merged : MergedValue α
  /-- What the parameters hold, or what they refer to. -/
  arguments : List α
  rebuilt : Option (Rebuilt α)
  result : Option α
  /-- The names in scope, the newest first. -/
  locals : List (String × Local)

/-- What is left when a method has run. A body that ends in a statement has no result but the
unit. -/
structure DispatchOutcome (α : Type*) where
  merged : MergedValue α
  arguments : List α
  result : Option α

namespace Frame

/-- The parameters in scope. -/
def parameters (names : List String) : List (String × Local) :=
  names.zipIdx.map fun entry => (entry.1, .parameter entry.2)

/-- The state before the first step. -/
def start (receiver : ReceiverKind) (names : List String) (m : MergedValue α)
    (arguments : List α) : Frame α :=
  ⟨receiver, m, arguments, none, none, parameters names⟩

/-- The position of the parameter that a name stands for. -/
def position? (frame : Frame α) (name : String) : Option Nat :=
  match frame.locals.lookup name with
  | some (.parameter position) => some position
  | _ => none

/-- The rebuilt instance, if its name stands for it. -/
def instance? (frame : Frame α) : Option (Rebuilt α) :=
  match frame.locals.lookup Dispatch.instanceName with
  | some .rebuilt => frame.rebuilt
  | _ => none

/-- The contents at some positions replaced one after the other. -/
def replace (contents : List α) : List Nat → List α → List α
  | position :: positions, value :: values =>
    replace (contents.set position value) positions values
  | _, _ => contents

/-- The state after a call. Only an exclusive receiver can have changed the instance. -/
def afterCall (frame : Frame α) (call : Call) (rebuilt : Rebuilt α) (positions : List Nat)
    (outcome : CallOutcome α) : Frame α :=
  { frame with
    arguments := replace frame.arguments positions outcome.arguments
    rebuilt := some
      (if call.receiver = .exclusive then { rebuilt with fields := outcome.fields }
      else rebuilt) }

/-- A call on the rebuilt instance with the parameters that its arguments name. -/
def call? (methods : VariantMethods α) (call : Call) (frame : Frame α) : Option (α × Frame α) :=
  frame.instance?.bind fun rebuilt =>
    if rebuilt.variant = call.variant ∧ (call.receiver = .exclusive → rebuilt.isMut) then
      (call.arguments.mapM frame.position?).bind fun positions =>
        (positions.mapM fun position => frame.arguments[position]?).map fun values =>
          let outcome := methods.run call.target rebuilt.fields values
          (outcome.result, frame.afterCall call rebuilt positions outcome)
    else none

end Frame

namespace MergedType

/-- The conversion that is read from the code of the variant of this name, and the fields that the
variant declares. -/
def conversionOf? (merged : MergedType) (config : Config) (variant : String) :
    Option (Conversion × List String) :=
  (merged.variants.find? (·.name == variant)).bind fun declared =>
    (merged.readConversion? config (merged.conversion config declared).code).map fun conversion =>
      (conversion, declared.fields.map VariantField.name)

/-- The routine of this name called to read a variant. -/
def rebuild? (merged : MergedType) (config : Config) (variant routine : String)
    (m : MergedValue α) : Option (Record α) :=
  (merged.conversionOf? config variant).bind fun (conversion, declared) =>
    if conversion.names.fromMerged = routine then conversion.runFromMerged declared m else none

/-- The routine of this name called to write a variant. -/
def writeBack? (merged : MergedType) (config : Config) (variant routine : String)
    (x : Record α) (m : MergedValue α) : Option (MergedValue α) :=
  (merged.conversionOf? config variant).bind fun (conversion, _) =>
    if conversion.names.writeInto = routine then conversion.runWriteInto x m else none

end MergedType

/-- One step. Only a step that is no statement yields a value. -/
def ArmStep.run (merged : MergedType) (config : Config) (methods : VariantMethods α)
    (frame : Frame α) : ArmStep → Option (Option α × Frame α)
  | .rebuild variant routine isMut fromCopy =>
    if fromCopy ∨ frame.receiver ≠ .value then
      (merged.rebuild? config variant routine frame.merged).map fun fields =>
        (none, { frame with
          rebuilt := some ⟨variant, isMut, fields⟩
          locals := (Dispatch.instanceName, .rebuilt) :: frame.locals })
    else none
  | .bindResult call =>
    (frame.call? methods call).map fun (result, after) =>
      (none, { after with
        result := some result
        locals := (Dispatch.resultName, .held) :: after.locals })
  | .perform call => (frame.call? methods call).map fun (_, after) => (none, after)
  | .yieldCall call => (frame.call? methods call).map fun (result, after) => (some result, after)
  | .writeBack routine =>
    if frame.receiver = .exclusive then
      frame.instance?.bind fun rebuilt =>
        (merged.writeBack? config rebuilt.variant routine rebuilt.fields frame.merged).map
          fun written => (none, { frame with merged := written })
    else none
  | .yieldResult =>
    match frame.locals.lookup Dispatch.resultName with
    | some .held => some (frame.result, frame)
    | _ => none

/-- The steps of an arm, whose value is that of the last one. All others have to be statements. -/
def runSteps (merged : MergedType) (config : Config) (methods : VariantMethods α) :
    List ArmStep → Frame α → Option (Option α × Frame α)
  | [], frame => some (none, frame)
  | [step], frame => step.run merged config methods frame
  | step :: next :: rest, frame =>
    match step.run merged config methods frame with
    | some (none, after) => runSteps merged config methods (next :: rest) after
    | _ => none

/-- A dispatching method with this receiver and these parameters, called on a merged value whose
discriminant is held by a field. The arm is the first one for the variant that it names. -/
def DispatchMethod.run (method : DispatchMethod) (merged : MergedType) (config : Config)
    (methods : VariantMethods α) (typeIdField : String) (receiver : ReceiverKind)
    (parameters : List String) (m : MergedValue α) (arguments : List α) :
    Option (DispatchOutcome α) :=
  match m typeIdField with
  | some (.tag (some variant)) =>
    (method.arms.find? (·.variant == variant)).bind fun arm =>
      (runSteps merged config methods arm.steps (.start receiver parameters m arguments)).map
        fun (result, frame) => ⟨frame.merged, frame.arguments, result⟩
  | _ => none

/-- An emitted method, called on a merged value that holds a variant: what is read from its code is
run. -/
def MergedType.runMethod (merged : MergedType) (config : Config) (methods : VariantMethods α)
    (code : Code) (receiver : ReceiverKind) (parameters : List String) (m : MergedValue α)
    (arguments : List α) : Option (DispatchOutcome α) :=
  (DispatchMethod.ofCode? merged.typeIdName code).bind fun (field, method) =>
    method.run merged config methods field receiver parameters m arguments

end VariantMerge
