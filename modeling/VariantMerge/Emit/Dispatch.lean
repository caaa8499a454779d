import VariantMerge.Merged
import VariantMerge.Writer

/-!
# Dispatch on the discriminant

Each member of the hierarchy becomes a method of the merged type that branches on the
discriminant. The arm of a variant rebuilds an instance from the slots, calls the variant's own
method on it and, if that takes the instance exclusively, writes it back before yielding the
result. Without a variant, parameters that are only written are reset and a default is yielded.
An arm is a list of steps, which has a meaning apart from its text.
-/

namespace VariantMerge

/-- A call of a variant's own method on the rebuilt instance. -/
structure Call where
  variant : String
  interface : String
  method : String
  /-- The types and constants that are passed on. -/
  generics : List String
  receiver : ReceiverKind
  arguments : List String
  isUnsafe : Bool
  deriving DecidableEq, Repr

/-- One step of an arm. -/
inductive ArmStep where
  /-- Binds the instance to the value that the slots hold. `fromCopy` says that the receiver is the
  merged value itself and no reference to it. -/
  | rebuild (variant routine : String) (isMut fromCopy : Bool)
  | bindResult (call : Call)
  | perform (call : Call)
  | yieldCall (call : Call)
  | writeBack (routine : String)
  | yieldResult
  deriving DecidableEq, Repr

/-- What is done for one variant. -/
structure Arm where
  variant : String
  steps : List ArmStep
  deriving DecidableEq, Repr

/-- What is done without a variant. -/
structure Fallback where
  resets : List String
  yieldsDefault : Bool
  deriving DecidableEq, Repr

/-- A method of the merged type. -/
structure DispatchMethod where
  head : String
  arms : List Arm
  fallback : Fallback
  deriving DecidableEq, Repr

/-- The implementation of one trait of the hierarchy for the merged type. -/
structure DispatchImpl where
  interface : String
  merged : String
  methods : List DispatchMethod
  deriving DecidableEq, Repr

namespace Dispatch

/-- The local that holds the rebuilt instance; it shares its scope with the parameters. -/
def instanceName : String := "__polystruct_instance"

/-- The local that holds the result while the instance is written back. -/
def resultName : String := "__polystruct_result"

/-- The default value of any type. -/
def defaultValue : String := "::core::default::Default::default()"

def someVariant : String := "::core::option::Option::Some"

def noVariant : String := "::core::option::Option::None"

end Dispatch

namespace Call

/-- The instance as the receiver takes it. -/
def receiverText : ReceiverKind → String
  | .shared => "&" ++ Dispatch.instanceName
  | .exclusive => "&mut " ++ Dispatch.instanceName
  | .value => Dispatch.instanceName

/-- The generic arguments of a call, if there are any. -/
def genericsText (arguments : List String) : String :=
  if arguments.isEmpty then "" else "::<" ++ String.intercalate ", " arguments ++ ">"

/-- The call as a safe method is called. -/
def plainText (call : Call) : String :=
  "<" ++ call.variant ++ " as " ++ call.interface ++ ">::" ++ call.method ++
    genericsText call.generics ++ "(" ++
    String.intercalate ", " (receiverText call.receiver :: call.arguments) ++ ")"

def text (call : Call) : String :=
  if call.isUnsafe then "unsafe \x7b " ++ call.plainText ++ " \x7d" else call.plainText

end Call

namespace ArmStep

def text : ArmStep → String
  | rebuild variant routine isMut fromCopy =>
    SourceWriter.bindingText isMut Dispatch.instanceName
      (variant ++ "::" ++ routine ++ if fromCopy then "(&self)" else "(self)")
  | bindResult call => SourceWriter.bindingText false Dispatch.resultName call.text
  | perform call => call.text ++ ";"
  | yieldCall call => call.text
  | writeBack routine => Dispatch.instanceName ++ "." ++ routine ++ "(self);"
  | yieldResult => Dispatch.resultName

end ArmStep

namespace Arm

/-- The head of the arm: the pattern of a merged value that holds the variant. -/
def headText (typeIdName variant : String) : String :=
  Dispatch.someVariant ++ "(" ++ typeIdName ++ "::" ++ variant ++ ") =>"

/-- Writes the arm with one line for each step. -/
def emit (arm : Arm) (typeIdName : String) (w : SourceWriter) : Except Failure SourceWriter :=
  let opened := w.beginScope (headText typeIdName arm.variant)
  (arm.steps.foldl (fun w step => w.line step.text) opened).endScope

end Arm

namespace Fallback

/-- The line that resets a parameter. -/
def resetText (name : String) : String :=
  "*" ++ name ++ " = " ++ Dispatch.defaultValue ++ ";"

/-- Writes the arm for no variant, in one line if there is nothing to do. -/
def emit (fallback : Fallback) (w : SourceWriter) : Except Failure SourceWriter :=
  if fallback.resets.isEmpty && !fallback.yieldsDefault then
    .ok (w.line (Dispatch.noVariant ++ " => \x7b\x7d"))
  else
    let opened := w.beginScope (Dispatch.noVariant ++ " =>")
    let reset := fallback.resets.foldl (fun w name => w.line (resetText name)) opened
    (if fallback.yieldsDefault then reset.line Dispatch.defaultValue else reset).endScope

end Fallback

namespace DispatchMethod

/-- Writes the arms for the variants, and then the one for no variant. -/
def emitArms (method : DispatchMethod) (typeIdName : String) (w : SourceWriter) :
    Except Failure SourceWriter := do
  let branched ← method.arms.foldlM (fun w arm => arm.emit typeIdName w) w
  method.fallback.emit branched

/-- Writes the method, which branches on the field with the discriminant. -/
def emit (method : DispatchMethod) (typeIdField typeIdName : String) (w : SourceWriter) :
    Except Failure SourceWriter := do
  let opened := (w.beginScope method.head).beginScope ("match self." ++ typeIdField)
  let branched ← method.emitArms typeIdName opened
  (← branched.endScope).endScope

end DispatchMethod

namespace DispatchImpl

/-- Writes one method of an implementation, after an empty line unless it is the first one. -/
def emitMethod (typeIdField typeIdName : String) (state : Bool × SourceWriter)
    (method : DispatchMethod) : Except Failure (Bool × SourceWriter) := do
  let (first, w) := state
  return (false, ← method.emit typeIdField typeIdName (if first then w else w.blank))

/-- Writes the implementation after an empty line. -/
def emit (impl : DispatchImpl) (typeIdField typeIdName : String) (w : SourceWriter) :
    Except Failure SourceWriter := do
  let opened := (w.blank.attr "allow(unused_variables, clippy::let_unit_value)").beginScope
    ("impl " ++ impl.interface ++ " for " ++ impl.merged)
  let (_, filled) ← impl.methods.foldlM (emitMethod typeIdField typeIdName) (true, opened)
  filled.endScope

end DispatchImpl

namespace Method

/-- The characters without any `, ` at their end. -/
def dropTrailingCommas (cs : List Char) : List Char :=
  (dropPairs cs.reverse).reverse
where
  /-- The reversed characters without any reversed `, ` at their front. -/
  dropPairs : List Char → List Char
    | ' ' :: ',' :: rest => dropPairs rest
    | cs => cs

/-- The head of the method as the merged type declares it. -/
def headText (method : Method) : String :=
  let inputs := method.receiverText :: method.params.map fun param =>
    param.name ++ ": " ++ param.ty.text
  (if method.isUnsafe then "unsafe " else "") ++ "fn " ++ method.name ++
    Token.render method.generics.tokens ++ "(" ++ String.intercalate ", " inputs ++ ")" ++
    (match method.output with
    | none => ""
    | some ty => " -> " ++ ty.text) ++
    match method.generics.conditions with
    | none => ""
    | some clause =>
      " " ++ String.ofList (dropTrailingCommas (Token.render clause.tokens).toList)

/-- The call of a variant's own method. -/
def callOn (method : Method) (interface variant : String) : Call where
  variant := variant
  interface := interface
  method := method.name
  generics := method.generics.params.filterMap GenericParam.argument?
  receiver := method.receiver
  arguments := method.params.map Param.name
  isUnsafe := method.isUnsafe

/-- The steps for one variant. Only an exclusive receiver is written back, and then before the
result is yielded. -/
def stepsFor (method : Method) (names : ConversionNames) (interface variant : String) :
    List ArmStep :=
  let call := method.callOn interface variant
  match method.receiver, method.returnsValue with
  | .exclusive, true =>
    [.rebuild variant names.fromMerged true false, .bindResult call, .writeBack names.writeInto,
      .yieldResult]
  | .exclusive, false =>
    [.rebuild variant names.fromMerged true false, .perform call, .writeBack names.writeInto]
  | .shared, _ => [.rebuild variant names.fromMerged false false, .yieldCall call]
  | .value, _ => [.rebuild variant names.fromMerged false true, .yieldCall call]

/-- The method of the merged type that dispatches to this one. -/
def dispatch (method : Method) (names : ConversionNames) (interface : String)
    (variants : List String) : DispatchMethod where
  head := method.headText
  arms := variants.map fun variant => ⟨variant, method.stepsFor names interface variant⟩
  fallback := ⟨method.outParams.map Param.name, method.returnsValue⟩

end Method

namespace MergedType

/-- The implementation of each trait of the hierarchy. -/
def dispatchImpls (merged : MergedType) : List DispatchImpl :=
  merged.members.traits.map fun declared =>
    ⟨declared.name, merged.name, (declared.members.flatMap Member.methods).map fun method =>
      method.dispatch merged.conversionNames declared.name (merged.variants.map Variant.name)⟩

/-- Writes the implementation of each trait of the hierarchy. -/
def emitDispatch (merged : MergedType) (config : Config) (w : SourceWriter) :
    Except Failure SourceWriter :=
  merged.dispatchImpls.foldlM (fun w impl => impl.emit config.typeIdField merged.typeIdName w) w

end MergedType

end VariantMerge
