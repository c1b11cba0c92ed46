import CodeAtlas.Span
import CodeAtlas.Text.Chars

/-!
# Components

A component is an addressable unit of code: a function, a method, a type, a field, a variable, or
what remains of a file when all of these are taken out. It owns byte ranges of its file's text, and
it is linked to the components and to the external symbols it refers to.
-/

namespace CodeAtlas

/-- Identifier of a component. -/
abbrev ComponentId := String

/-- Identifier of a file. -/
abbrev FileId := String

/-- Identifier of an external symbol. -/
abbrev ExternalId := String

/-- The kinds of components. -/
inductive ComponentKind where
  | function
  | method
  /-- Classes, structures, interfaces, enumerations and other types. -/
  | type
  | field
  | variable
  /-- The part of a file that no other component has. -/
  | residual
deriving DecidableEq, Repr, Inhabited

namespace ComponentKind

/-- The name of a kind in stored graphs and reports. -/
def name : ComponentKind → String
  | .function => "function"
  | .method => "method"
  | .type => "class"
  | .field => "field"
  | .variable => "variable"
  | .residual => "residual"

/-- All kinds. -/
def all : List ComponentKind :=
  [.function, .method, .type, .field, .variable, .residual]

/-- The kind with a given name. -/
def ofName? (s : String) : Option ComponentKind :=
  all.find? fun kind => kind.name == s

/-- Components of this kind can be the target of a call. -/
def isCallable : ComponentKind → Bool
  | .function | .method | .type => true
  | .field | .variable | .residual => false

end ComponentKind

/-- A unit of code, with what it owns and what it refers to. -/
structure Component where
  id : ComponentId
  qualifiedName : String
  codeText : String
  kind : ComponentKind
  fileId : FileId
  /-- The enclosing component, if there is one. -/
  parentId : Option ComponentId
  /-- The byte ranges of the file's text that belong to the component. -/
  spans : List Span
  /-- The components it refers to. -/
  linkedIds : List ComponentId
  /-- The external symbols it refers to. -/
  externalIds : List ExternalId
  /-- The names its code refers to. -/
  referencedSymbols : List String
deriving DecidableEq, Repr, Inhabited

namespace Component

/-- The component is the remainder of its file. -/
def isResidual (c : Component) : Bool :=
  c.kind == .residual

/-- The component has a link to the given one. -/
def linksTo (c : Component) (id : ComponentId) : Bool :=
  c.linkedIds.contains id

/-- The last segment of the qualified name. -/
def shortName (c : Component) : String :=
  Text.afterLast '.' c.qualifiedName

end Component

end CodeAtlas
