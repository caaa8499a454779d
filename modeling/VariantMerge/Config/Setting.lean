import VariantMerge.Config

/-!
# Settings in a document

A configuration can be written in more than one format. What the settings are called and which
kind of value each of them takes is the same in all of them; a format tells how it writes a value
of each kind.
-/

namespace VariantMerge

/-- How a format writes values. Each function gives what a value of that kind says, or nothing for
a value of another kind. -/
structure ValueFormat (ν : Type) where
  text? : ν → Option String
  flag? : ν → Option Bool
  /-- A number that counts something. -/
  count? : ν → Option Nat
  items? : ν → Option (List ν)
  /-- A choice by its name, with what is written beside the name. -/
  choice? : ν → Option (String × Option ν)
  /-- Whether what is written beside the name of a choice says nothing. -/
  isVoid : ν → Bool

namespace ValueFormat

/-- The name of a choice that takes nothing beside it. -/
def bareChoice? (format : ValueFormat ν) (value : ν) : Option String :=
  match format.choice? value with
  | some (name, none) => some name
  | some (name, some beside) => if format.isVoid beside then some name else none
  | none => none

/-- An indentation. -/
def indent? (format : ValueFormat ν) (value : ν) : Option Indent :=
  match format.choice? value with
  | some ("spaces", some width) => (format.count? width).map .spaces
  | _ => if format.bareChoice? value = some "tabs" then some .tabs else none

/-- An output mode. -/
def mode? (format : ValueFormat ν) (value : ν) : Option OutputMode :=
  match format.bareChoice? value with
  | some "inline" => some .inPlace
  | some "module_units" => some .moduleUnits
  | _ => none

/-- A list of texts. -/
def texts? (format : ValueFormat ν) (value : ν) : Option (List String) :=
  (format.items? value).bind fun items => items.mapM format.text?

end ValueFormat

namespace Config

/-- The names of all settings. -/
def settingNames : List String :=
  ["marker_attribute", "interface_prefix", "type_id_field", "type_id_suffix", "derives",
   "serializable", "emit_from_impls", "indent", "mode"]

/-- Changes the setting of this name. Other names are passed by; a value of the wrong kind is
refused. -/
def set? (format : ValueFormat ν) (config : Config) (name : String) (value : ν) :
    Option Config :=
  match name with
  | "marker_attribute" => (format.text? value).map fun text => { config with marker := text }
  | "interface_prefix" =>
    (format.text? value).map fun text => { config with interfacePrefix := text }
  | "type_id_field" => (format.text? value).map fun text => { config with typeIdField := text }
  | "type_id_suffix" => (format.text? value).map fun text => { config with typeIdSuffix := text }
  | "derives" => (format.texts? value).map fun texts => { config with derives := texts }
  | "serializable" => (format.flag? value).map fun flag => { config with serializable := flag }
  | "emit_from_impls" =>
    (format.flag? value).map fun flag => { config with emitFromImpls := flag }
  | "indent" => (format.indent? value).map fun indent => { config with indent }
  | "mode" => (format.mode? value).map fun mode => { config with mode }
  | _ => some config

/-- Whether no setting is made twice. -/
def distinctSettings (names : List String) : Bool :=
  decide (names.filter settingNames.contains).Nodup

/-- The configuration that the entries of a document describe. -/
def ofEntries? (format : ValueFormat ν) (entries : List (String × ν)) : Option Config :=
  if distinctSettings (entries.map (·.1)) then
    entries.foldlM (fun config (name, value) => config.set? format name value) default
  else none

end Config

end VariantMerge
