import CodeAtlas.Extraction.Context

/-!
# Imports

An import makes names of other modules known in a file. It is read as a list of findings: the module
or symbol imported, and the names bound to what they stand for. Each language has its own forms.
-/

namespace CodeAtlas.Extraction

/-- What an import brings: targets in order, and bindings of local names in order. -/
structure Imports where
  targets : List String
  bindings : List (String × String)
deriving DecidableEq, Repr, Inhabited

namespace Imports

/-- No imports. -/
def none : Imports :=
  ⟨[], []⟩

/-- A target that binds no name. -/
def target (name : String) : Imports :=
  ⟨[name], []⟩

/-- A target with a name bound to it. -/
def bound (binding name : String) : Imports :=
  ⟨[name], [(binding, name)]⟩

/-- A name bound to what it stands for. -/
def binding (name stands : String) : Imports :=
  ⟨[], [(name, stands)]⟩

/-- One after the other. -/
def append (first second : Imports) : Imports :=
  ⟨first.targets ++ second.targets, first.bindings ++ second.bindings⟩

instance : Append Imports := ⟨append⟩

/-- All of them in order. -/
def concat (all : List Imports) : Imports :=
  all.foldr (· ++ ·) none

/-- What a name is bound to; later bindings replace earlier ones. -/
def lookup? (imports : Imports) (name : String) : Option String :=
  imports.bindings.reverse.lookup name

end Imports

/-! ## Python -/

/-- The module a specification names: leading dots count packages up from the file's own, and the
rest goes down from there. -/
def pythonModule (ctx : Context) (spec : String) : String :=
  let dots := spec.toList.takeWhile (· == '.')
  let rest := spec.toList.dropWhile (· == '.')
  if dots.isEmpty then
    spec
  else
    let own := Text.split '.' ctx.moduleName
    let package := if Text.endsWith "__init__.py" ctx.relativePath then own else own.dropLast
    let base := package.take (package.length - (dots.length - 1))
    Symbol.qualify (Text.join "." base) (String.ofList rest)

/-- The name and alias of an aliased import, as text. -/
def aliasParts? (ctx : Context) (node : Node) : Option (String × String) :=
  match node.child? "name", node.child? "alias" with
  | some name, some other => some (ctx.text name, ctx.text other)
  | _, _ => none

/-- A part of `import a.b, c as d`. -/
def pythonModulePart (ctx : Context) (node : Node) : Imports :=
  if node.kind = "dotted_name" then
    .target (ctx.text node)
  else if node.kind = "aliased_import" then
    match aliasParts? ctx node with
    | some (name, other) => .bound other name
    | none => .none
  else
    .none

/-- A part of `from m import a, b as c, *`. -/
def pythonSymbolPart (ctx : Context) (package : String) (node : Node) : Imports :=
  if node.kind = "dotted_name" then
    let name := ctx.text node
    .bound (Text.afterLast '.' name) (Symbol.qualify package name)
  else if node.kind = "aliased_import" then
    match aliasParts? ctx node with
    | some (name, other) => .bound other (Symbol.qualify package name)
    | none => .none
  else if node.kind = "wildcard_import" then
    .target package
  else
    .none

/-- An import statement of Python. -/
def pythonImport (ctx : Context) (node : Node) : Imports :=
  if node.kind = "import_statement" then
    .concat (node.namedChildren.map (pythonModulePart ctx))
  else
    match node.child? "module_name" with
    | none => .none
    | some moduleNode =>
      let package := pythonModule ctx (ctx.text moduleNode)
      let others := (node.children.eraseP (·.field == "module_name")).filter Node.isNamed
      .concat (others.map (pythonSymbolPart ctx package))

/-! ## JavaScript and TypeScript -/

/-- A quotation mark around a module specification. -/
def isQuote (c : Char) : Bool :=
  c == '"' || c == '\'' || c == '\x60'

/-- Follow one segment of a relative specification from a directory. -/
def followSegment (directory : List String) (segment : String) : List String :=
  if segment = "" ∨ segment = "." then directory
  else if segment = ".." then directory.dropLast
  else directory ++ [segment]

/-- The module a specification names: relative ones start from the file's directory, others are
written with dots. -/
def scriptModule (ctx : Context) (spec : String) : String :=
  if Text.startsWith "." spec then
    let directory := (Text.split '/' ctx.relativePath).dropLast
    let segments := (Text.split '/' spec).foldl followSegment directory
    Text.replaceChar '/' '.' (Language.withoutExtension (Text.join "/" segments))
  else
    Text.replaceChar '/' '.' (String.ofList (spec.toList.dropWhile (· == '@')))

/-- One of the named imports in braces. -/
def scriptSpecifier (ctx : Context) (target : String) (node : Node) : Imports :=
  match node.child? "name" with
  | none => .none
  | some nameNode =>
    let name := ctx.text nameNode
    let binding := ((node.child? "alias").map ctx.text).getD name
    .binding binding (Symbol.qualify target name)

/-- A part of an import clause: a default import, a namespace, or named imports. -/
def scriptClausePart (ctx : Context) (target : String) (node : Node) : Imports :=
  if node.kind = "identifier" then
    let name := ctx.text node
    .binding name (Symbol.qualify target name)
  else if node.kind = "namespace_import" then
    match node.descendant? "identifier" with
    | some ident => .binding (ctx.text ident) target
    | none => .none
  else if node.kind = "named_imports" then
    .concat ((node.namedChildren.filter (·.kind == "import_specifier")).map
      (scriptSpecifier ctx target))
  else
    .none

/-- An import statement of JavaScript or TypeScript. -/
def scriptImport (ctx : Context) (node : Node) : Imports :=
  match node.child? "source" with
  | none => .none
  | some sourceNode =>
    let target := scriptModule ctx (Text.trimMatches isQuote (ctx.text sourceNode))
    let clauses := node.namedChildren.filter (·.kind == "import_clause")
    .target target ++
      .concat (clauses.map fun clause =>
        .concat (clause.namedChildren.map (scriptClausePart ctx target)))

/-! ## Go -/

/-- One import specification of Go: blank and dot imports bind no name. -/
def goSpec (ctx : Context) (spec : Node) : Imports :=
  match spec.child? "path" with
  | none => .none
  | some pathNode =>
    let path := Text.trimMatches (· == '"') (ctx.text pathNode)
    let stands := Text.replaceChar '/' '.' path
    let name := ((spec.child? "name").map ctx.text).getD (Text.afterLast '/' path)
    if name = "_" ∨ name = "." then .target path
    else ⟨[path], [(name, stands)]⟩

/-- An import declaration of Go. -/
def goImport (ctx : Context) (node : Node) : Imports :=
  .concat ((node.descendants "import_spec").map (goSpec ctx))

/-! ## Rust -/

/-- A path below a base, without the word that roots it in the current crate or module. -/
def rustPath (base path : String) : String :=
  let joined := Symbol.qualify base path
  (["crate.", "self.", "super."].findSome? fun root => Text.afterStart? root joined).getD joined

/-- A renamed leaf of a use tree. -/
def rustRenamed (ctx : Context) (base : String) (node : Node) : Imports :=
  match node.child? "path", node.child? "alias" with
  | some pathNode, some aliasNode =>
    match ctx.symbol? pathNode with
    | some path => .bound (ctx.text aliasNode) (rustPath base path)
    | none => .none
  | _, _ => .none

/-- A wildcard leaf of a use tree. -/
def rustWildcard (ctx : Context) (base : String) (node : Node) : Imports :=
  match node.namedChildren.head?.bind ctx.symbol? with
  | some path => .target (rustPath base path)
  | none => .target base

/-- A plain leaf of a use tree; the word `self` alone brings nothing. -/
def rustLeaf (ctx : Context) (base : String) (node : Node) : Imports :=
  match ctx.symbol? node with
  | none => .none
  | some path =>
    if path = "self" then .none
    else .bound (Text.afterLast '.' path) (rustPath base path)

/-- The base of the members of a grouped use tree. -/
def rustGroupBase (ctx : Context) (base : String) (node : Node) : String :=
  match (node.child? "path").bind ctx.symbol? with
  | some path => rustPath base path
  | none => base

mutual

/-- The imports of a use tree below a base path. -/
def rustUse (ctx : Context) (base : String) : Node → Imports
  | .mk kind range isNamed field children =>
    let node := Node.mk kind range isNamed field children
    if kind = "use_as_clause" then rustRenamed ctx base node
    else if kind = "scoped_use_list" then
      rustUseList ctx (rustGroupBase ctx base node) children
    else if kind = "use_list" then rustUseAll ctx base children
    else if kind = "use_wildcard" then rustWildcard ctx base node
    else rustLeaf ctx base node

/-- The imports of the first node in the field `list`. -/
def rustUseList (ctx : Context) (base : String) : List Node → Imports
  | [] => .none
  | node :: rest =>
    if node.field == "list" then rustUse ctx base node else rustUseList ctx base rest

/-- The imports of the named nodes, in order. -/
def rustUseAll (ctx : Context) (base : String) : List Node → Imports
  | [] => .none
  | node :: rest =>
    if node.isNamed then rustUse ctx base node ++ rustUseAll ctx base rest
    else rustUseAll ctx base rest

end

/-- A use declaration of Rust. -/
def rustImport (ctx : Context) (node : Node) : Imports :=
  match node.child? "argument" with
  | some argument => rustUse ctx "" argument
  | none => .none

/-! ## C, C++ and C# -/

/-- A quotation mark or bracket around the path of an included file. -/
def isIncludeMark (c : Char) : Bool :=
  c == '"' || c == '<' || c == '>'

/-- An include directive of C or C++. -/
def includeImport (ctx : Context) (node : Node) : Imports :=
  match node.child? "path" with
  | none => .none
  | some pathNode =>
    let target := Text.trimMatches isIncludeMark (ctx.text pathNode)
    if target = "" then .none else .target target

/-- A using directive of C#: its last name counts. -/
def usingImport (ctx : Context) (node : Node) : Imports :=
  let names := node.namedChildren.filter fun child =>
    child.kind == "identifier" || child.kind == "qualified_name"
  match names.getLast? with
  | some name => .target (ctx.text name)
  | none => .none

/-- The imports of an import node. -/
def importsOf (ctx : Context) (node : Node) : Imports :=
  match ctx.language with
  | .python => pythonImport ctx node
  | .javaScript | .typeScript | .tsx => scriptImport ctx node
  | .go => goImport ctx node
  | .rust => rustImport ctx node
  | .c | .cpp => includeImport ctx node
  | .cSharp => usingImport ctx node

end CodeAtlas.Extraction
