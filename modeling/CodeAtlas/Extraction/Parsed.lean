import CodeAtlas.Component

/-!
# Parsed files

What extraction finds in one file, as plain data: the components with the spans they own and the
names they refer to, and what the file imports, calls and offers.
-/

namespace CodeAtlas

/-- What extraction finds about one component. -/
structure ParsedComponent where
  qualifiedName : String
  kind : ComponentKind
  /-- Qualified name of the enclosing component. -/
  parent : Option String
  spans : List Span
  referencedSymbols : List String
deriving DecidableEq, Repr, Inhabited

/-- What extraction finds in one file. -/
structure ParsedFile where
  relativePath : String
  moduleName : String
  text : String
  imports : List String
  calledSymbols : List String
  callableSymbols : List String
  components : List ParsedComponent
deriving DecidableEq, Repr, Inhabited

/-- Reasons why a file or a component cannot be extracted. -/
inductive ExtractError where
  | parseFailed (path : String)
  | componentNotFound (name : String)
  | invalidSpan (component : String) (span : Span)
  | unsupportedLanguage (path : String)
  | unreadable (reason : String)
deriving DecidableEq, Repr, Inhabited

/-- The wording of an extraction error. -/
def ExtractError.message : ExtractError → String
  | .parseFailed path => s!"Failed to parse source code: {path}"
  | .componentNotFound name => s!"Component not found in file: {name}"
  | .invalidSpan component span =>
    "Invalid span " ++ toString span.start ++ ".." ++ toString span.stop ++ " for component "
      ++ component
  | .unsupportedLanguage path => s!"Unsupported language for file: {path}"
  | .unreadable reason => s!"IO error: {reason}"

namespace ParsedFile

/-- The first component with the given name. -/
def component? (file : ParsedFile) (name : String) : Option ParsedComponent :=
  file.components.find? (·.qualifiedName == name)

/-- The pieces of text that spans cut out, or the first span that cuts out none. -/
def pieces (text : String) : List Span → Except Span (List String)
  | [] => .ok []
  | span :: rest =>
    match Text.slice? text span.start span.stop with
    | none => .error span
    | some piece => (pieces text rest).map (piece :: ·)

/-- The code of a component: the pieces of text its spans cut out, one after the other. -/
def componentText (file : ParsedFile) (component : ParsedComponent) :
    Except ExtractError String :=
  match pieces file.text component.spans with
  | .ok found => .ok (String.join found)
  | .error span => .error (.invalidSpan component.qualifiedName span)

end ParsedFile

end CodeAtlas
