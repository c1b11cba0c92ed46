import CodeAtlas.Attribute
import CodeAtlas.Document.Json
import CodeAtlas.Report.Json

/-!
# Attributes as JSON

The value of an attribute, written as JSON according to its sort.
-/

namespace CodeAtlas

/-- The value without its sort. -/
def AttributeValue.toJson : AttributeValue → Json
  | .components items => .array (items.map Component.toJson)
  | .files items => .array (items.map SourceFile.toJson)
  | .externalSymbols table => table.toJson
  | .changes set => set.toJson
  | .text s => .string s
  | .optionalText s => .text? s
  | .flag b => .bool b
  | .path s => .string s
  | .json value => value

/-- The value of a given sort. -/
def AttributeValue.ofJson? (sort : ValueSort) (value : Json) : Option AttributeValue :=
  match sort with
  | .components => (value.asList? Component.ofJson?).map .components
  | .files => (value.asList? SourceFile.ofJson?).map .files
  | .externalSymbols => (SymbolTable.ofJson? value).map .externalSymbols
  | .changes => (ChangeSet.ofJson? value).map .changes
  | .text => value.asText?.map .text
  | .optionalText => (value.asOption? Json.asText?).map .optionalText
  | .flag => value.asBool?.map .flag
  | .path => value.asText?.map .path
  | .json => some (.json value)

end CodeAtlas
