import VariantMerge.Failure
import VariantMerge.Variant

/-!
# Members of an interface

A method of a trait becomes a member that can be dispatched if its signature allows it: it takes
the value that it is called on, does not mention the type that implements it, and returns nothing
that borrows from that value. Methods marked as accessors are paired into properties.
-/

namespace VariantMerge

/-- How a method takes the value that it is called on. -/
inductive ReceiverKind where
  | shared
  | exclusive
  | value
  deriving DecidableEq, Repr, Inhabited

/-- How a parameter is passed on. An `out` parameter is only written by the method. -/
inductive ParamMode where
  | value
  | shared
  | exclusive
  | out
  deriving DecidableEq, Repr, Inhabited

structure Param where
  name : String
  ty : Ty
  mode : ParamMode

/-- A method that can be dispatched. -/
structure Method where
  name : String
  receiver : ReceiverKind
  /-- The receiver as it is written in the dispatching method. -/
  receiverText : String
  params : List Param
  output : Option Ty
  generics : Generics
  isUnsafe : Bool

namespace Method

def returnsValue (method : Method) : Bool :=
  method.output.isSome

/-- The parameters that are only written. -/
def outParams (method : Method) : List Param :=
  method.params.filter (·.mode == .out)

end Method

/-- A getter, a setter or both under one name. -/
structure Property where
  name : String
  ty : Ty
  getter : Option Method
  setter : Option Method

namespace Property

/-- The accessors that are there, the getter first. -/
def accessors (property : Property) : List Method :=
  property.getter.toList ++ property.setter.toList

end Property

/-- A member of an interface. -/
inductive Member where
  | method (method : Method)
  | property (property : Property)

namespace Member

def name : Member → String
  | method m => m.name
  | property p => p.name

/-- The methods that the member consists of. -/
def methods : Member → List Method
  | method m => [m]
  | property p => p.accessors

end Member

namespace Token

mutual

/-- Whether the token is, or holds, the name of the implementing type. -/
def mentionsSelf : Token → Bool
  | word text => text == "Self"
  | lifetime name => name == "Self"
  | op _ | openOp _ => false
  | group _ inner => anyMentionsSelf inner

def anyMentionsSelf : List Token → Bool
  | [] => false
  | token :: rest => token.mentionsSelf || anyMentionsSelf rest

end

/-- Whether the lifetime `'static` comes first. -/
def startsStatic : List Token → Bool
  | lifetime name :: _ => name == "static"
  | _ => false

/-- Whether an operator takes a reference. The sign has to be its last character, and the
lifetime `'static` has to follow, for the reference not to borrow. -/
def opBorrows (text : String) (rest : List Token) : Bool :=
  match text.toList.reverse with
  | [] => false
  | last :: before => before.contains '&' || (last == '&' && !startsStatic rest)

mutual

/-- Whether the token, which `rest` follows, is or holds a reference or lifetime other than a
`'static` one. -/
def borrows (rest : List Token) : Token → Bool
  | word _ => false
  | lifetime name => name != "static"
  | op text | openOp text => opBorrows text rest
  | group _ inner => anyBorrows inner

def anyBorrows : List Token → Bool
  | [] => false
  | token :: rest => token.borrows rest || anyBorrows rest

end

end Token

namespace Param

/-- The name of the attribute on a parameter that is only written. -/
def outMark : String := "out"

/-- The name under which a parameter is passed on: that of its pattern, or one by its position. -/
def nameFor (pattern : Pattern) (position : Nat) : String :=
  pattern.name?.getD ("arg" ++ toString position)

/-- The mode of a parameter of this type. Only an exclusive reference can be only written. -/
def modeFor (name : String) (isOut : Bool) (ty : Ty) : Except Reason ParamMode :=
  match ty, isOut with
  | .reference _ true _, true => .ok .out
  | _, true => .error (.outNotExclusive name)
  | .reference _ true _, false => .ok .exclusive
  | .reference _ false _, false => .ok .shared
  | _, false => .ok .value

/-- The parameter at a position after the receiver. -/
def ofInput (input : FnInput) (position : Nat) : Except Reason Param :=
  match input with
  | .receiver _ => .error .misplacedReceiver
  | .typed attributes pattern ty =>
    if Token.anyMentionsSelf ty.tokens then .error .selfInParameter
    else
      let name := nameFor pattern position
      (modeFor name (Attribute.anyNamed attributes outMark) ty).map fun mode => ⟨name, ty, mode⟩

end Param

namespace Method

/-- The receiver of a method with its text. The text of a receiver by value leaves out `mut`. -/
def receiverOf (inputs : List FnInput) : Except Reason (ReceiverKind × String) :=
  match inputs with
  | .receiver receiver :: _ =>
    if receiver.ty.isSome then .error .typedReceiver
    else
      match receiver.reference, receiver.isMut with
      | some _, true => .ok (.exclusive, Token.render receiver.tokens)
      | some _, false => .ok (.shared, Token.render receiver.tokens)
      | none, _ => .ok (.value, "self")
  | _ => .error .noReceiver

/-- The result of a method, if it returns a value. -/
def outputOf (output : Option Ty) : Except Reason (Option Ty) :=
  match output with
  | none => .ok none
  | some ty =>
    if ty.isUnit then .ok none
    else if Token.anyMentionsSelf ty.tokens then .error .selfInOutput
    else if Token.anyBorrows ty.tokens then .error .borrowedOutput
    else .ok (some ty)

/-- The method with this signature, or the first reason for which it cannot be dispatched. -/
def ofSignature (signature : Signature) : Except Reason Method := do
  if signature.isAsync then throw .asyncMethod
  if signature.variadic.isSome then throw .variadicMethod
  if signature.abi.isSome then throw .explicitAbi
  let (receiver, receiverText) ← receiverOf signature.inputs
  let params ← (signature.inputs.drop 1).zipIdx.mapM fun (input, position) =>
    Param.ofInput input position
  let output ← outputOf signature.output
  return ⟨signature.name, receiver, receiverText, params, output, signature.generics,
    signature.isUnsafe⟩

end Method

namespace Property

/-- The name of the attribute on an accessor. -/
def mark : String := "property"

/-- The name of the property that a method called `set_name` sets. -/
def setterName? (name : String) : Option String :=
  match name.toList with
  | 's' :: 'e' :: 't' :: '_' :: rest => some (String.ofList rest)
  | _ => none

/-- What a method marked as accessor does: a getter takes nothing and returns a value, a setter
takes one and returns nothing. -/
inductive Accessor where
  | getter (name : String) (output : Option Ty)
  | setter (name : String) (ty : Ty)

/-- The accessor that a method is, if it has the shape of one. -/
def accessor? (method : Method) : Option Accessor :=
  if method.params.isEmpty && method.returnsValue then
    some (.getter method.name method.output)
  else
    match method.params, method.returnsValue, setterName? method.name with
    | [param], false, some name => some (.setter name param.ty)
    | _, _, _ => none

/-- The getter and setter have to agree on the type. -/
def checkType (property : Property) (ty : Ty) : Except Reason Unit :=
  if property.ty.key == ty.key then .ok ()
  else .error (.propertyTypes property.ty.text ty.text)

/-- Adds a getter. -/
def addGetter (property : Property) (ty : Ty) (method : Method) : Except Reason Property :=
  if property.getter.isSome then .error .getterTwice
  else (property.checkType ty).map fun _ => { property with getter := some method }

/-- Adds a setter. -/
def addSetter (property : Property) (ty : Ty) (method : Method) : Except Reason Property :=
  if property.setter.isSome then .error .setterTwice
  else (property.checkType ty).map fun _ => { property with setter := some method }

end Property

namespace Member

/-- Changes the property of this name, or adds one with the given type at the end. -/
def updateProperty (name : String) (ty : Ty) (change : Property → Except ε Property) :
    List Member → Except ε (List Member)
  | [] => (change ⟨name, ty, none, none⟩).map fun property => [.property property]
  | .property existing :: rest =>
    if existing.name == name then
      (change existing).map fun changed => .property changed :: rest
    else (updateProperty name ty change rest).map (.property existing :: ·)
  | .method m :: rest => (updateProperty name ty change rest).map (.method m :: ·)

/-- Adds an accessor to the members before it. -/
def addAccessor (interface : String) (members : List Member) (method : Method) :
    Except Failure (List Member) :=
  match Property.accessor? method with
  | some (.getter name (some ty)) =>
    updateProperty name ty (fun property =>
      (property.addGetter ty method).mapError (.unsupportedMember interface name)) members
  | some (.getter name none) => .error (.internal (.lostOutput name))
  | some (.setter name ty) =>
    updateProperty name ty (fun property =>
      (property.addSetter ty method).mapError (.unsupportedMember interface name)) members
  | none => .error (.unsupportedMember interface method.name .accessorShape)

/-- Adds a method of a trait to the members before it. -/
def addMethod (interface : String) (members : List Member) (attributes : List Attribute)
    (signature : Signature) : Except Failure (List Member) := do
  let method ← (Method.ofSignature signature).mapError (.unsupportedMember interface signature.name)
  if Attribute.anyNamed attributes Property.mark then addAccessor interface members method
  else return members ++ [.method method]

end Member

end VariantMerge
