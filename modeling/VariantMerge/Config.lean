import VariantMerge.Text.Blank

/-!
# Configuration

What a pass can be told: the names that it looks for and makes, what it derives, and how its text
is laid out. `Config.check` finds the first setting that generated code could not contain.
-/

namespace VariantMerge

/-- What one level of indentation is made of. -/
inductive Indent where
  | tabs
  | spaces (width : Nat)
  deriving DecidableEq, Repr, Inhabited

namespace Indent

/-- No text can have this many characters or more. -/
def textLimit : Nat := 9223372036854775808

/-- The text of one level, unless no text can be that long. -/
def unit? : Indent → Option String
  | tabs => some "\t"
  | spaces width =>
    if width < textLimit then some (String.ofList (List.replicate width ' ')) else none

end Indent

/-- Where generated items go: to the end of the module that declares the interface, or into a
wrapper module for each module that hosts some. -/
inductive OutputMode where
  | inPlace
  | moduleUnits
  deriving DecidableEq, Repr, Inhabited

/-- The settings of a pass. -/
structure Config where
  /-- The attribute that marks a trait as an interface. -/
  marker : String
  /-- What the interface's name has in front of the merged type's name. -/
  interfacePrefix : String
  /-- The field of the merged type that tells the variant. -/
  typeIdField : String
  /-- What the name of the discriminant adds to that of the merged type. -/
  typeIdSuffix : String
  /-- The traits that the merged type derives, besides `Default`. -/
  derives : List String
  /-- Whether the merged type can be serialised. -/
  serializable : Bool
  /-- Whether conversions by `From` are generated. -/
  emitFromImpls : Bool
  indent : Indent
  mode : OutputMode
  deriving DecidableEq, Repr

namespace Config

/-- The settings where nothing else is said. -/
def default : Config where
  marker := "polymorphic_struct"
  interfacePrefix := "I"
  typeIdField := "current_type_id"
  typeIdSuffix := "TypeId"
  derives := ["Clone", "Debug", "PartialEq"]
  serializable := false
  emitFromImpls := true
  indent := .spaces 4
  mode := .inPlace

instance : Inhabited Config := ⟨default⟩

end Config

/-- A setting that generated code could not contain. -/
inductive ConfigProblem where
  | marker (text : String)
  | typeIdField (text : String)
  | typeIdSuffix (text : String)
  | interfacePrefix (text : String)
  | derive (text : String)
  | indent
  deriving DecidableEq, Repr, Inhabited

namespace ConfigProblem

def message (problem : ConfigProblem) : String :=
  "Invalid configuration: " ++
    match problem with
    | marker text => "marker_attribute `" ++ text ++ "` is not an identifier"
    | typeIdField text => "type_id_field `" ++ text ++ "` is not an identifier"
    | typeIdSuffix text =>
      "type_id_suffix `" ++ text ++ "` must be a non-empty identifier fragment"
    | interfacePrefix text => "interface_prefix `" ++ text ++ "` is not an identifier fragment"
    | derive text => "derive `" ++ text ++ "` is not a path"
    | indent => "indent must use at least one space"

end ConfigProblem

namespace Config

/-- Whether the characters are an ASCII letter or underscore, and then these or digits. -/
def isIdentifier : List Char → Bool
  | [] => false
  | c :: rest => (c.isAlpha || c == '_') && rest.all fun d => d.isAlphanum || d == '_'

/-- The characters after all double colons at the front. -/
def dropColons : List Char → List Char
  | ':' :: ':' :: rest => dropColons rest
  | cs => cs

/-- Whether the text is a path of identifiers, double colons in front aside. -/
def isPath (text : String) : Bool :=
  (Text.colonPieces (dropColons text.toList)).all isIdentifier

/-- The first setting that generated code could not contain, if there is one. -/
def problem? (config : Config) : Option ConfigProblem :=
  if !isIdentifier config.marker.toList then some (.marker config.marker)
  else if !isIdentifier config.typeIdField.toList then some (.typeIdField config.typeIdField)
  else if !isIdentifier config.typeIdSuffix.toList then some (.typeIdSuffix config.typeIdSuffix)
  else if !config.interfacePrefix.isEmpty && !isIdentifier config.interfacePrefix.toList then
    some (.interfacePrefix config.interfacePrefix)
  else
    match config.derives.find? (!isPath ·) with
    | some text => some (.derive text)
    | none => if config.indent = .spaces 0 then some .indent else none

/-- The settings, if generated code can contain them all. -/
def check (config : Config) : Except ConfigProblem Config :=
  match config.problem? with
  | some problem => .error problem
  | none => .ok config

end Config

end VariantMerge
