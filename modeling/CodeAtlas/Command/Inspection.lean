import CodeAtlas.Command.Repository
import CodeAtlas.Json.Printer
import CodeAtlas.Report.Json

/-!
# Commands that read graphs

The stored graph is counted and checked, or the dependencies of one component are listed.
-/

namespace CodeAtlas.Command

/-! ## Statistics -/

/-- The counts in words, a line each. -/
def statsLines (stats : GraphView.Stats) : List String :=
  ["  Files:            " ++ toString stats.files,
    "  Components:       " ++ toString stats.components,
    "  External symbols: " ++ toString stats.externalSymbols,
    "  Internal edges:   " ++ toString stats.internalEdges,
    "  External edges:   " ++ toString stats.externalEdges]
  ++
  if stats.componentsByKind.isEmpty then []
  else
    "\n  Components by kind:"
      :: stats.componentsByKind.map fun (kind, count) => "    " ++ kind ++ ": " ++ toString count

/-- What a document says about itself, a line each. -/
def documentLines (path : String) (document : Document) : List String :=
  ["Graph: " ++ path]
    ++ (document.repository.toList.map fun repository => "Repository: " ++ repository)
    ++ (document.commitHash.toList.map fun commit => "Commit: " ++ commit)

/-- The issues in words, a line each. -/
def issueLines (issues : List Issue) : List String :=
  if issues.isEmpty then ["\nNo invariant violations"]
  else
    ("\n" ++ toString issues.length ++ " invariant violations:")
      :: issues.map fun issue => "  - " ++ issue.message

/-- The statistics as an object. -/
def statsJson (path : String) (document : Document) (stats : GraphView.Stats)
    (issues : Option (List Issue)) : Json :=
  .object (
    [("graph", .string path), ("repository", .text? document.repository),
      ("commit", .text? document.commitHash), ("stats", stats.toJson)]
    ++ issues.toList.map fun issues => ("issues", .texts (issues.map Issue.message)))

/-- Show the counts of the stored graph, and its issues if they are asked for. -/
def showStats (globals : GlobalOptions) (options : StatsOptions) (config : Config) :
    Action Unit := do
  let store := storeOf config (← workingTree globals) options.graph
  let document ← loadDocument store
  let stats := (GraphView.ofGraph document.graph).stats
  let issues := if options.validate then some (CodeAtlas.validate document.graph) else none
  if options.json then
    Action.printLine (statsJson store.path document stats issues).sortMembers.pretty
  else
    (documentLines store.path document).forM Action.printLine
    Action.printLine ""
    (statsLines stats).forM Action.printLine
    match issues with
    | none => pure ()
    | some issues =>
      (issueLines issues).forM Action.printLine
      if !issues.isEmpty then
        Action.fail (.simple "Graph failed validation")

/-! ## Dependencies -/

/-- The one component of a name or dotted suffix: its identifier and its full name. -/
def selectComponent (view : GraphView) (name : String) :
    Except String (ComponentId × String) :=
  match view.findByName name with
  | [] => .error ("No component named '" ++ name ++ "'")
  | [.component id fullName _] => .ok (id, fullName)
  | [_] => .error ("'" ++ name ++ "' is not a component")
  | many =>
    .error ("'" ++ name ++ "' is ambiguous; candidates:\n  "
      ++ Text.join "\n  " (many.map GraphNode.name))

/-- What is listed: the name of the relation, and the nodes. -/
def related (view : GraphView) (options : DepsOptions) (id : ComponentId) :
    String × List GraphNode :=
  if options.reverse then ("dependents", view.dependents id)
  else if options.transitive then ("transitive", view.transitiveDependencies id)
  else ("dependencies", view.dependencies id)

/-- A node on a line. -/
def nodeLine : GraphNode → String
  | .component _ name kind => "  " ++ name ++ " [" ++ kind.name ++ "]"
  | .external _ name => "  " ++ name ++ " [external]"
  | .file _ path => "  " ++ path ++ " [file]"

/-- The listing as an object. -/
def depsJson (name relation : String) (nodes : List GraphNode) : Json :=
  .object [("component", .string name), ("direction", .string relation),
    ("nodes", .array (nodes.map GraphNode.toJson))]

/-- The listing as lines. -/
def depsLines (name relation : String) (nodes : List GraphNode) : List String :=
  if nodes.isEmpty then [name ++ " has no " ++ relation]
  else (name ++ " (" ++ relation ++ "):") :: nodes.map nodeLine

/-- List the dependencies of a component. -/
def listDependencies (globals : GlobalOptions) (options : DepsOptions) (config : Config) :
    Action Unit := do
  let document ← loadDocument (storeOf config (← workingTree globals) options.graph)
  let view := GraphView.ofGraph document.graph
  let (id, name) ← Action.ofExcept (fun message => [message]) (selectComponent view options.name)
  let (relation, nodes) := related view options id
  if options.json then
    Action.printLine (depsJson name relation nodes).pretty
  else
    (depsLines name relation nodes).forM Action.printLine

end CodeAtlas.Command
