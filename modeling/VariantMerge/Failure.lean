import VariantMerge.ModulePath

/-!
# Failures and diagnostics

Why code cannot be generated for an interface, and the reports that a pass makes of it. A failure
names its cause; the wording is decided in `Reason.message` and `Failure.message` alone.
-/

namespace VariantMerge

/-- The cause of a failure. -/
inductive Reason where
  | missingPrefix (expected : String)
  | unusableName (rest : String)
  | genericTrait (name : String)
  | genericSupertrait (name : String)
  | associatedType (name : String)
  | associatedConst (name : String)
  | strayDeclaration (name : String) (module : ModulePath)
  | asyncMethod
  | variadicMethod
  | explicitAbi
  | typedReceiver
  | noReceiver
  | misplacedReceiver
  | selfInParameter
  | outNotExclusive (parameter : String)
  | selfInOutput
  | borrowedOutput
  | getterTwice
  | setterTwice
  | propertyTypes (expected found : String)
  | accessorShape
  | genericStruct
  | duplicateVariant
  | unopenedScope
  | openScopes (count : Nat) (innermost : String)
  | lostOutput (getter : String)
  | stated (text : String)
  deriving DecidableEq, Repr, Inhabited

namespace Reason

def message : Reason → String
  | missingPrefix expected => "the name does not start with the prefix `" ++ expected ++ "`"
  | unusableName rest => "`" ++ rest ++ "` is not a usable type name"
  | genericTrait name => "trait `" ++ name ++ "` has generic parameters"
  | genericSupertrait name => "supertrait `" ++ name ++ "` takes generic arguments"
  | associatedType name => "associated type `" ++ name ++ "` cannot be shared by every variant"
  | associatedConst name => "associated const `" ++ name ++ "` cannot be dispatched on a value"
  | strayDeclaration name module =>
    "`" ++ name ++ "` is declared in `" ++ module.display ++
      "`; inline generation needs the whole hierarchy in one module"
  | asyncMethod => "async methods cannot be dispatched"
  | variadicMethod => "variadic methods cannot be dispatched"
  | explicitAbi => "methods with an explicit ABI cannot be dispatched"
  | typedReceiver => "typed receivers such as `self: Box<Self>` are not supported"
  | noReceiver => "associated functions without a receiver have no discriminant to dispatch on"
  | misplacedReceiver => "unexpected receiver position"
  | selfInParameter => "parameters cannot mention `Self`"
  | outNotExclusive parameter =>
    "#[out] parameter `" ++ parameter ++ "` must be a `&mut` reference"
  | selfInOutput => "return types cannot mention `Self`; the variant and merged types differ"
  | borrowedOutput => "return types cannot borrow from the transient variant instance"
  | getterTwice => "getter declared twice"
  | setterTwice => "setter declared twice"
  | propertyTypes expected found =>
    "getter and setter disagree on the property type (`" ++ expected ++ "` vs `" ++ found ++ "`)"
  | accessorShape =>
    "#[property] accessors must look like `fn name(&self) -> T` or " ++
      "`fn set_name(&mut self, value: T)`"
  | genericStruct => "generic structs cannot be merged into a single value type"
  | duplicateVariant => "two variants share this name; their discriminants would collide"
  | unopenedScope => "closed a scope that was never opened"
  | openScopes count innermost =>
    toString count ++ " scope(s) left open, innermost `" ++ innermost ++ "`"
  | lostOutput getter => "getter `" ++ getter ++ "` lost its return type"
  | stated text => text

end Reason

/-- What could not be done. -/
inductive Failure where
  /-- A source text could not be read. -/
  | parse (unit : String) (problem : String)
  /-- No name for the merged type can be made from the interface's name. -/
  | invalidName (interface : String) (reason : Reason)
  /-- The interface is declared in a way that is not supported. -/
  | unsupportedInterface (interface : String) (reason : Reason)
  /-- A member of the interface cannot be dispatched. -/
  | unsupportedMember (interface : String) (member : String) (reason : Reason)
  /-- A struct cannot be merged. -/
  | unsupportedVariant (variant : String) (reason : Reason)
  /-- Text was not put together as it should. -/
  | internal (reason : Reason)
  /-- One level of indentation is too long for any text. -/
  | oversizedIndent
  /-- The common indentation of a block ends inside of a character. -/
  | cutCharacter
  deriving DecidableEq, Repr, Inhabited

namespace Failure

def message : Failure → String
  | parse unit problem => "Failed to parse " ++ unit ++ ": " ++ problem
  | invalidName interface reason =>
    "Cannot derive a merged type name from `" ++ interface ++ "`: " ++ reason.message
  | unsupportedInterface interface reason =>
    "Unsupported polymorphic interface `" ++ interface ++ "`: " ++ reason.message
  | unsupportedMember interface member reason =>
    "Unsupported member `" ++ member ++ "` of `" ++ interface ++ "`: " ++ reason.message
  | unsupportedVariant variant reason =>
    "Unsupported variant `" ++ variant ++ "`: " ++ reason.message
  | internal reason => "Internal error: " ++ reason.message
  | oversizedIndent => "capacity overflow"
  | cutCharacter => "the common indentation ends inside of a character"

/-- The interface that the failure itself names. -/
def interface? : Failure → Option String
  | invalidName interface _ | unsupportedInterface interface _
  | unsupportedMember interface _ _ => some interface
  | _ => none

end Failure

/-- How bad a reported condition is. -/
inductive Severity where
  | warning
  | error
  deriving DecidableEq, Repr, Inhabited

namespace Severity

def label : Severity → String
  | warning => "warning"
  | error => "error"

end Severity

/-- A condition reported by a pass, with the interface that it concerns. -/
structure Diagnostic where
  severity : Severity
  interface : Option String
  message : String
  deriving DecidableEq, Repr, Inhabited

namespace Diagnostic

def isError (diagnostic : Diagnostic) : Bool :=
  diagnostic.severity == .error

/-- The report of a failure. -/
def ofFailure (failure : Failure) : Diagnostic :=
  ⟨.error, failure.interface?, failure.message⟩

/-- The report on one line. -/
def display (diagnostic : Diagnostic) : String :=
  match diagnostic.interface with
  | some interface =>
    diagnostic.severity.label ++ " [" ++ interface ++ "]: " ++ diagnostic.message
  | none => diagnostic.severity.label ++ ": " ++ diagnostic.message

/-- Whether one of the reports is an error. -/
def anyError (diagnostics : List Diagnostic) : Bool :=
  diagnostics.any isError

end Diagnostic

end VariantMerge
