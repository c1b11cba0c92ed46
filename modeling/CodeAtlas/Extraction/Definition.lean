import CodeAtlas.Extraction.Context

/-!
# Names of definitions

How the name of a definition node is found: in a field, down a chain of declarators, at the first
node of a kind below, or from the receiver of a method. A definition written out of line, as
`Outer.inner`, belongs to the type it names.
-/

namespace CodeAtlas.Extraction

/-- Kinds of initial values that make a variable a function. -/
def functionValueKinds : List String :=
  ["arrow_function", "function_expression", "function", "generator_function"]

/-- The longest chain of declarators that is followed. -/
def declaratorDepth : Nat := 16

/-- Kinds of nodes at which a chain of declarators ends with a name. -/
def declaratorNames : List String :=
  ["identifier", "field_identifier", "qualified_identifier", "destructor_name",
    "type_identifier", "operator_name"]

/-- Follow a chain of declarators to the node with the name, through at most `fuel` nodes. -/
def followDeclarators (rejectFunctions : Bool) : Nat → Node → Option Node
  | 0, _ => none
  | fuel + 1, node =>
    if rejectFunctions && node.kind == "function_declarator" then none
    else if declaratorNames.contains node.kind then some node
    else
      match node.child? "declarator" with
      | some next => followDeclarators rejectFunctions fuel next
      | none =>
        match node.namedChildren.head? with
        | some next => followDeclarators rejectFunctions fuel next
        | none => none

/-- The node that holds the name of a definition or of a scope. -/
def nameNode? (node : Node) : NameRule → Option Node
  | .field field => node.child? field
  | .declarator => (node.child? "declarator").bind (followDeclarators false declaratorDepth)
  | .variableDeclarator => (node.child? "declarator").bind (followDeclarators true declaratorDepth)
  | .descendant kind =>
    (node.descendant? kind).bind fun target =>
      (target.child? "name").or (target.namedChildren.find? (·.kind == "identifier"))
  | .receiver => none

/-- Kinds of nodes that are identifiers, so that a variable can be named by them. -/
def isIdentifierKind (kind : String) : Bool :=
  Text.endsWith "identifier" kind || kind == "name" || kind == "constant"

/-- The name of a definition, below the scope it stands in. -/
structure DefinitionName where
  localName : String
  /-- The type named by a definition out of line. -/
  ownerType : Option String
  /-- The word by which a method calls its receiver. -/
  selfAlias : Option String
deriving DecidableEq, Repr, Inhabited

/-- The name of a method with a receiver: the receiver's type, without pointers and type arguments,
then the method's name. -/
def receiverName? (ctx : Context) (node : Node) : Option DefinitionName := do
  let method ← ctx.symbol? (← node.child? "name")
  let receiver ← node.child? "receiver"
  let param ← receiver.descendant? "parameter_declaration"
  let typeNode ← param.child? "type"
  let bare := (ctx.text typeNode).toList.dropWhile (· == '*')
  let typeName ← Symbol.normalize?
    (Text.trim (String.ofList (bare.takeWhile (· != '['))))
  return {
    localName := typeName ++ "." ++ method
    ownerType := some typeName
    selfAlias := (param.child? "name").map ctx.text }

/-- The type a dotted name belongs to. -/
def ownerOf? (name : String) : Option String :=
  (Text.cutLast? '.' name.toList).map fun (owner, _) => String.ofList owner

/-- The name that a node spells for a definition of the given kind. Variables are named by
identifiers, and only functions are defined out of line. -/
def spelledName? (ctx : Context) (kind : ComponentKind) (node : Node) : Option DefinitionName :=
  if kind == .variable && !isIdentifierKind node.kind then none
  else
    match ctx.symbol? node with
    | none => none
    | some name =>
      match ownerOf? name with
      | some owner =>
        if kind == .function then some ⟨name, some owner, none⟩ else none
      | none => some ⟨name, none, none⟩

/-- The name of a definition node. -/
def definitionName? (ctx : Context) (rule : DefinitionRule) (node : Node) :
    Option DefinitionName :=
  if rule.name = .receiver then receiverName? ctx node
  else (nameNode? node rule.name).bind (spelledName? ctx rule.kind)

end CodeAtlas.Extraction
