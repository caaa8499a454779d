import VariantMerge.Generation

/-!
# Expansion of attributes

The two attributes that a program can use without a build step. One is written on a module: the
merged types of its interfaces are generated to the end of the module, and the attributes that only
the generator knows are removed. The other marks a single trait, which stays as it is but for
these attributes.

Expansion works on tokens in both directions. Generated text is read again before it becomes part
of the module, so that what is not a list of declarations is found here.
-/

namespace VariantMerge

/-- Why an attribute cannot be expanded. -/
inductive ExpansionError where
  /-- The arguments or the declaration cannot be read. -/
  | unreadable (error : SyntaxError)
  /-- An argument has no value. -/
  | noValue
  /-- An argument's name is not a single word. -/
  | compoundKey
  /-- An argument's value is not a literal. -/
  | noLiteral
  /-- There is no such argument, or its value is of the wrong kind. -/
  | argument (key : String)
  /-- The arguments are not a valid configuration. -/
  | setting (problem : ConfigProblem)
  /-- The module's items are in a file of their own. -/
  | noBody
  /-- A generated source is not a list of declarations. -/
  | unreadableSource (name : String) (error : SyntaxError)
  /-- A marked trait is generic. -/
  | genericInterface
  deriving DecidableEq, Repr

namespace ExpansionError

def message : ExpansionError → String
  | unreadable error => error.message
  | noValue => "expected `key = value`"
  | compoundKey => "expected a plain key"
  | noLiteral => "expected a literal"
  | argument key => "unknown or mistyped argument `" ++ key ++ "`"
  | setting problem => problem.message
  | noBody =>
    "#[polymorphic_structs] needs an inline module body: `mod name \x7b ... \x7d`"
  | unreadableSource name _ =>
    "generated code for `" ++ name ++ "` does not parse: <syntax>"
  | genericInterface => "polymorphic interfaces cannot be generic"

end ExpansionError

/-! ## Removing attributes -/

namespace Attribute

/-- The attributes without those that have this name. -/
def without (name : String) (attributes : List Attribute) : List Attribute :=
  attributes.filter (!·.isNamed name)

end Attribute

namespace FnInput

/-- A parameter is no longer marked as an output. Receivers keep what they have. -/
def stripped : FnInput → FnInput
  | receiver self => receiver self
  | typed attributes pattern ty => typed (Attribute.without Param.outMark attributes) pattern ty

end FnInput

namespace TraitEntry

/-- A method is no longer marked as a property, nor its parameters as outputs. -/
def stripped : TraitEntry → TraitEntry
  | method attributes signature body =>
    method (Attribute.without Property.mark attributes)
      { signature with inputs := signature.inputs.map FnInput.stripped } body
  | entry => entry

end TraitEntry

namespace TraitItem

/-- A trait without the marker and the marks of its members. -/
def stripped (marker : String) (item : TraitItem) : TraitItem :=
  { item with
    attributes := Attribute.without marker item.attributes
    entries := item.entries.map TraitEntry.stripped }

end TraitItem

mutual

/-- An item whose traits are stripped, those of inner modules too. -/
def Item.stripped (marker : String) : Item → Item
  | .trait item => .trait (item.stripped marker)
  | .module head (.some items) => .module head (.some (strippedItems marker items))
  | item => item

def strippedItems (marker : String) : List Item → List Item
  | [] => []
  | item :: rest => item.stripped marker :: strippedItems marker rest

end

namespace Expansion

/-- What can be read goes on; the first thing that cannot is the reason to stop. -/
def reading (result : Except SyntaxError α) : Except ExpansionError α :=
  result.mapError .unreadable

/-- The trees of a text. -/
def trees (text : String) : Except ExpansionError (List Tree) :=
  reading ((Tree.ofText text).mapError SyntaxError.mk)

/-! ## Arguments -/

/-- The names in a list with commas between them; blank ones do not count. -/
def names (text : String) : List String :=
  ((text.toList.splitOn ',').map fun part => String.ofList (Text.trim part)).filter
    fun name => !name.isEmpty

/-- What an argument says about the configuration. -/
def applyArgument (config : Config) (key literal : String) : Except ExpansionError Config :=
  match key, Literal.stringValue? literal, Literal.flagValue? literal with
  | "derives", some text, _ => .ok { config with derives := names text }
  | "serializable", _, some flag => .ok { config with serializable := flag }
  | "emit_from_impls", _, some flag => .ok { config with emitFromImpls := flag }
  | "type_id_field", some text, _ => .ok { config with typeIdField := text }
  | "interface_prefix", some text, _ => .ok { config with interfacePrefix := text }
  | _, _, _ => .error (.argument key)

/-- Reads an argument that has been parsed like the inside of an attribute. -/
def addArgument (config : Config) (argument : Attribute) : Except ExpansionError Config :=
  match argument.content with
  | .value _ literal? =>
    match argument.leading, argument.path, literal? with
    | false, [key], some literal => applyArgument config key literal
    | false, [_], none => .error .noLiteral
    | _, _, _ => .error .compoundKey
  | _ => .error .noValue

/-- The configuration that the arguments ask for. The generated items go to the end of the
module. -/
def config (arguments : List Tree) : Except ExpansionError Config := do
  let given ← reading (Source.parseTrees Source.attributeList arguments)
  let asked ← given.foldlM addArgument { Config.default with mode := .inPlace }
  asked.check.mapError .setting

/-! ## Modules -/

/-- The declarations in a generated source. -/
def generatedItems (source : GeneratedSource) : Except ExpansionError (List Item) :=
  match Source.parse Parser.items source.text with
  | .ok (_, items) => .ok items
  | .error error => .error (.unreadableSource source.name error)

/-- A call that makes compilation fail with a message. -/
def compileError (message : String) : List Token :=
  [.op "::", .word "core", .op "::", .word "compile_error", .op "!",
    .group .brace [.word (Text.stringLiteral message)]]

/-- The module with what was generated at its end, and an error after it for every interface that
failed. -/
def assemble (config : Config) (head : ModuleHead) (items : List Item) (generation : Generation) :
    Except ExpansionError (List Token) := do
  let made ← generation.sources.mapM generatedItems
  let whole := Item.module head (some (strippedItems config.marker items ++ made.flatten))
  return whole.tokens ++
    (generation.diagnostics.filter Diagnostic.isError).flatMap fun diagnostic =>
      compileError diagnostic.display

/-- Expands the attribute on a module. Broken tokens in the arguments are found first, then
whatever is wrong with the module, then the rest. -/
def module (arguments declaration : String) :
    Logged (Except ExpansionError (List Token)) := ExceptT.run do
  let given ← ExceptT.mk (pure (trees arguments))
  let (head, content) ← ExceptT.mk (pure (reading (Source.parse Source.moduleItem declaration)))
  let config ← ExceptT.mk (pure (config given))
  match content with
  | none => throw .noBody
  | some items =>
    let generation ← ExceptT.lift (Generation.run config [⟨head.name, .root, items⟩])
    ExceptT.mk (pure (assemble config head items generation))

/-! ## Single traits -/

/-- Checks the payload of a marker: nothing, or one string. -/
def checkPayload (payload : List Tree) : Except ExpansionError Unit :=
  if payload.isEmpty then .ok ()
  else do
    let _ ← reading (Source.parseTrees Source.stringLiteral payload)

/-- Expands the marker on a trait. -/
def marker (payload declaration : String) : Except ExpansionError (List Token) := do
  let given ← trees payload
  let item ← reading (Source.parse Source.traitItem declaration)
  checkPayload given
  if item.generics.params.isEmpty then return (item.stripped Config.default.marker).tokens
  else throw .genericInterface

end Expansion

end VariantMerge
