import CodeAtlas.Component
import CodeAtlas.Language

/-!
# What the syntax of a language means

For each language, tables by kind of syntax node: which nodes define components and how their names
are found, which only open a naming scope, which are calls, and which are imports.
-/

namespace CodeAtlas

/-- How the name of a definition or of a scope is found. -/
inductive NameRule where
  /-- The child in the given field. -/
  | field (name : String)
  /-- Down the chain of declarators to the identifier. -/
  | declarator
  /-- The same, unless the chain passes the declarator of a function. -/
  | variableDeclarator
  /-- The type of the receiver, then the name. -/
  | receiver
  /-- The first node of the given kind below, then its name. -/
  | descendant (kind : String)
deriving DecidableEq, Repr, Inhabited

/-- A kind of node that defines a component. -/
structure DefinitionRule where
  nodeKind : String
  kind : ComponentKind
  name : NameRule
  /-- It defines only with a child in the field `body`. -/
  requiresBody : Bool := false
  /-- It defines only directly inside of a type. -/
  memberOnly : Bool := false
deriving DecidableEq, Repr, Inhabited

/-- A kind of node that lengthens qualified names and is no component itself. -/
structure ScopeRule where
  nodeKind : String
  name : NameRule
  /-- The scope is that of a type, so that functions in it are methods. -/
  isType : Bool
deriving DecidableEq, Repr, Inhabited

/-- The tables of a language. -/
structure Rules where
  definitions : List DefinitionRule
  scopes : List ScopeRule
  /-- Kinds of calls, each with the field of the callee. -/
  calls : List (String × String)
  imports : List String
  /-- The words that stand for the enclosing type's value. -/
  selfNames : List String
  /-- Names that never belong to the package. -/
  builtins : List String
deriving DecidableEq, Repr, Inhabited

namespace Rules

/-- The definition rule of a kind of node. -/
def definition? (rules : Rules) (nodeKind : String) : Option DefinitionRule :=
  rules.definitions.find? (·.nodeKind == nodeKind)

/-- The scope rule of a kind of node. -/
def scope? (rules : Rules) (nodeKind : String) : Option ScopeRule :=
  rules.scopes.find? (·.nodeKind == nodeKind)

/-- The field of the callee, for a kind of node that is a call. -/
def callField? (rules : Rules) (nodeKind : String) : Option String :=
  rules.calls.lookup nodeKind

/-- Nodes of this kind are imports. -/
def isImport (rules : Rules) (nodeKind : String) : Bool :=
  rules.imports.contains nodeKind

end Rules

private def named (nodeKind : String) (kind : ComponentKind) : DefinitionRule where
  nodeKind := nodeKind
  kind := kind
  name := .field "name"

private def plainScope (nodeKind : String) : ScopeRule where
  nodeKind := nodeKind
  name := .field "name"
  isType := false

private def cDefinitions (types : List String) : List DefinitionRule :=
  [{ nodeKind := "function_definition", kind := .function, name := .declarator }]
    ++ types.map (fun type => { named type .type with requiresBody := true })
    ++ [{ nodeKind := "field_declaration", kind := .variable, name := .variableDeclarator,
          memberOnly := true },
        { nodeKind := "declaration", kind := .variable, name := .variableDeclarator }]

private def scriptFunctions : List DefinitionRule :=
  [named "function_declaration" .function, named "generator_function_declaration" .function]

/-- The rules of Python. -/
def pythonRules : Rules where
  definitions :=
    [named "function_definition" .function, named "class_definition" .type,
      { nodeKind := "assignment", kind := .variable, name := .field "left" }]
  scopes := []
  calls := [("call", "function")]
  imports := ["import_statement", "import_from_statement"]
  selfNames := ["self", "cls"]
  builtins := []

/-- The rules of JavaScript. -/
def javaScriptRules : Rules where
  definitions := scriptFunctions ++
    [named "class_declaration" .type, named "method_definition" .function,
      { nodeKind := "field_definition", kind := .variable, name := .field "property",
        memberOnly := true },
      named "variable_declarator" .variable]
  scopes := []
  calls := [("call_expression", "function"), ("new_expression", "constructor")]
  imports := ["import_statement"]
  selfNames := ["this"]
  builtins := []

/-- The rules of TypeScript, with and without markup. -/
def typeScriptRules : Rules where
  definitions := scriptFunctions ++
    [named "class_declaration" .type, named "abstract_class_declaration" .type,
      named "interface_declaration" .type, named "enum_declaration" .type,
      named "method_definition" .function,
      { named "public_field_definition" .variable with memberOnly := true },
      named "variable_declarator" .variable]
  scopes := [plainScope "internal_module"]
  calls := [("call_expression", "function"), ("new_expression", "constructor")]
  imports := ["import_statement"]
  selfNames := ["this"]
  builtins := []

/-- The rules of Rust. -/
def rustRules : Rules where
  definitions :=
    [named "function_item" .function, named "struct_item" .type, named "enum_item" .type,
      named "union_item" .type, named "trait_item" .type,
      { named "field_declaration" .variable with memberOnly := true },
      named "const_item" .variable, named "static_item" .variable]
  scopes :=
    [{ nodeKind := "impl_item", name := .field "type", isType := true }, plainScope "mod_item"]
  calls := [("call_expression", "function")]
  imports := ["use_declaration"]
  selfNames := ["self", "Self"]
  builtins := []

/-- The rules of Go. -/
def goRules : Rules where
  definitions :=
    [named "function_declaration" .function,
      { nodeKind := "method_declaration", kind := .function, name := .receiver },
      named "type_spec" .type,
      { named "field_declaration" .variable with memberOnly := true },
      named "var_spec" .variable, named "const_spec" .variable]
  scopes := []
  calls := [("call_expression", "function")]
  imports := ["import_declaration"]
  selfNames := []
  builtins :=
    ["append", "cap", "clear", "close", "complex", "copy", "delete", "imag", "len", "make",
      "max", "min", "new", "panic", "print", "println", "real", "recover"]

/-- The rules of C. -/
def cRules : Rules where
  definitions := cDefinitions ["struct_specifier", "union_specifier"]
  scopes := []
  calls := [("call_expression", "function")]
  imports := ["preproc_include"]
  selfNames := []
  builtins := []

/-- The rules of C++. -/
def cppRules : Rules where
  definitions := cDefinitions ["class_specifier", "struct_specifier", "union_specifier"]
  scopes := [plainScope "namespace_definition"]
  calls := [("call_expression", "function")]
  imports := ["preproc_include"]
  selfNames := ["this"]
  builtins := []

/-- The rules of C#. -/
def cSharpRules : Rules where
  definitions :=
    [named "class_declaration" .type, named "struct_declaration" .type,
      named "interface_declaration" .type, named "record_declaration" .type,
      named "enum_declaration" .type, named "method_declaration" .function,
      named "constructor_declaration" .function,
      { named "property_declaration" .variable with memberOnly := true },
      { nodeKind := "field_declaration", kind := .variable,
        name := .descendant "variable_declarator", memberOnly := true }]
  scopes :=
    [plainScope "namespace_declaration", plainScope "file_scoped_namespace_declaration"]
  calls := [("invocation_expression", "function"), ("object_creation_expression", "type")]
  imports := ["using_directive"]
  selfNames := ["this"]
  builtins := []

/-- The rules of a language. -/
def Language.rules : Language → Rules
  | .python => pythonRules
  | .javaScript => javaScriptRules
  | .typeScript | .tsx => typeScriptRules
  | .rust => rustRules
  | .go => goRules
  | .c => cRules
  | .cpp => cppRules
  | .cSharp => cSharpRules

end CodeAtlas
