import CodeAtlas.Extraction.Definition
import CodeAtlas.Extraction.Imports

/-!
# Walking a syntax tree

One walk serves every language. At each node it is decided what the node is (a definition, a
scope, an import, a call, or ordinary code) and in which scope its children are visited. Nothing is
defined below a function or a variable, so code nested in them belongs to them.
-/

namespace CodeAtlas.Extraction

/-- A definition that was found: its name and kind, the definition around it, and its range. -/
structure Draft where
  qualifiedName : String
  kind : ComponentKind
  /-- The number of the enclosing definition. -/
  parent : Option Nat
  range : Span
  /-- The type that the words for the own value stand for. -/
  selfType : Option String
  selfAlias : Option String
deriving DecidableEq, Repr, Inhabited

/-- A call, with the number of the definition it belongs to; calls outside of all definitions
belong to the remainder of the file. -/
structure Call where
  owner : Option Nat
  callee : String
deriving DecidableEq, Repr, Inhabited

/-- What the walk has found so far, each in the order of the walk. -/
structure Findings where
  drafts : List Draft
  calls : List Call
  imports : Imports
deriving DecidableEq, Repr, Inhabited

/-- Nothing found. -/
def Findings.none : Findings :=
  ⟨[], [], .none⟩

/-- The place of a node: what names start with, the enclosing definition, and whether definitions
are still looked for. -/
structure Scope where
  qualifier : String
  owner : Option Nat
  inType : Bool
  /-- Nothing is defined below this point. -/
  isSealed : Bool
  selfType : Option String
  selfAlias : Option String
deriving DecidableEq, Repr, Inhabited

/-- The scope of a whole file. -/
def Scope.ofFile (ctx : Context) : Scope :=
  ⟨ctx.qualifier, none, false, false, none, none⟩

/-- What happens at a node: its children are visited in a scope, or not at all. -/
inductive Step where
  | descend (scope : Scope) (found : Findings)
  | finish (found : Findings)
deriving DecidableEq, Repr, Inhabited

/-- The kind of a definition in its place: variables with functions as values are functions, and
functions and variables of a type are its methods and fields. -/
def placedKind (rule : DefinitionRule) (node : Node) (ofType : Bool) : ComponentKind :=
  let valueKind := (node.child? "value").map Node.kind
  let kind : ComponentKind :=
    if rule.kind == .variable && valueKind.any functionValueKinds.contains then .function
    else rule.kind
  match ofType, kind with
  | true, .function => .method
  | true, .variable => .field
  | _, kind => kind

/-- The name is taken, by the file's remainder or by an earlier definition. -/
def isTaken (ctx : Context) (found : Findings) (name : String) : Bool :=
  name == ctx.moduleName || found.drafts.any (·.qualifiedName == name)

/-- The name of the definition at a node, if the node is a definition in this scope. -/
def definitionAt? (ctx : Context) (scope : Scope) (rule : DefinitionRule) (node : Node) :
    Option DefinitionName :=
  if rule.memberOnly && !scope.inType then none
  else if rule.requiresBody && (node.child? "body").isNone then none
  else definitionName? ctx rule node

/-- Enter a definition. The first definition of a name becomes a draft; the code of a later one
stays with the definition around it. -/
def enterDefinition (ctx : Context) (scope : Scope) (rule : DefinitionRule) (node : Node)
    (name : DefinitionName) (found : Findings) : Step :=
  let kind := placedKind rule node (scope.inType || name.ownerType.isSome)
  let qualifiedName := Symbol.qualify scope.qualifier name.localName
  if isTaken ctx found qualifiedName then
    .descend { scope with isSealed := true } found
  else
    let isType := kind == .type
    let selfType :=
      if isType then some qualifiedName
      else (name.ownerType.map (Symbol.qualify scope.qualifier)).or scope.selfType
    let selfAlias := name.selfAlias.or scope.selfAlias
    let draft : Draft := ⟨qualifiedName, kind, scope.owner, node.range, selfType, selfAlias⟩
    .descend
      { qualifier := if isType then qualifiedName else scope.qualifier
        owner := some found.drafts.length
        inType := isType
        isSealed := !isType
        selfType := selfType
        selfAlias := selfAlias }
      { found with drafts := found.drafts ++ [draft] }

/-- The scope below a scope node with the given name. -/
def innerScope (scope : Scope) (rule : ScopeRule) (name : String) : Scope :=
  let qualified := Symbol.qualify scope.qualifier name
  { scope with
    qualifier := qualified
    inType := rule.isType
    selfType := if rule.isType then some qualified else scope.selfType }

/-- The definition step at a node, if definitions are looked for and the node is one. -/
def definitionStep? (ctx : Context) (scope : Scope) (found : Findings) (node : Node) :
    Option Step :=
  if scope.isSealed then none
  else
    (ctx.rules.definition? node.kind).bind fun rule =>
      (definitionAt? ctx scope rule node).map fun name =>
        enterDefinition ctx scope rule node name found

/-- The scope step at a node, if definitions are looked for and the node opens a scope. -/
def scopeStep? (ctx : Context) (scope : Scope) (found : Findings) (node : Node) : Option Step :=
  if scope.isSealed then none
  else
    (ctx.rules.scope? node.kind).bind fun rule =>
      ((nameNode? node rule.name).bind ctx.symbol?).map fun name =>
        .descend (innerScope scope rule name) found

/-- The callee of a call node, if its text is a name. -/
def calleeOf? (ctx : Context) (node : Node) : Option String :=
  ((ctx.rules.callField? node.kind).bind node.child?).bind ctx.symbol?

/-- What happens at a node that is neither definition nor scope: imports are read and not entered,
and calls are recorded. -/
def codeStep (ctx : Context) (scope : Scope) (found : Findings) (node : Node) : Step :=
  if ctx.rules.isImport node.kind then
    .finish { found with imports := found.imports ++ importsOf ctx node }
  else
    match calleeOf? ctx node with
    | some callee => .descend scope { found with calls := found.calls ++ [⟨scope.owner, callee⟩] }
    | none => .descend scope found

/-- What happens at a node. -/
def step (ctx : Context) (scope : Scope) (found : Findings) (node : Node) : Step :=
  ((definitionStep? ctx scope found node).or (scopeStep? ctx scope found node)).getD
    (codeStep ctx scope found node)

mutual

/-- Visit a node and what is below it. -/
def visit (ctx : Context) (scope : Scope) (found : Findings) : Node → Findings
  | .mk kind range isNamed field children =>
    match step ctx scope found (.mk kind range isNamed field children) with
    | .descend scope found => visitAll ctx scope found children
    | .finish found => found

/-- Visit the named nodes of a list, one after the other. -/
def visitAll (ctx : Context) (scope : Scope) (found : Findings) : List Node → Findings
  | [] => found
  | node :: rest =>
    if node.isNamed then visitAll ctx scope (visit ctx scope found node) rest
    else visitAll ctx scope found rest

end

/-- What is found below the root of a file's tree. -/
def walk (ctx : Context) (root : Node) : Findings :=
  visitAll ctx (.ofFile ctx) .none root.children

end CodeAtlas.Extraction
