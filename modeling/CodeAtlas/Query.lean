import CodeAtlas.CodeGraph
import CodeAtlas.Text.Sorted

/-!
# Queries

A view of a code graph made for following edges: files, external symbols and components are nodes,
a component lies inside of its file and its parent, and it uses what it is linked to. Nodes are
unique by their identifier within their sort, and edges to missing nodes are left out.
-/

namespace CodeAtlas

/-- A node of the view. -/
inductive GraphNode where
  | file (id : FileId) (path : String)
  | component (id : ComponentId) (name : String) (kind : ComponentKind)
  | external (id : ExternalId) (name : String)
deriving DecidableEq, Repr, Inhabited

/-- What identifies a node: its sort and its identifier. -/
inductive NodeKey where
  | file (id : FileId)
  | component (id : ComponentId)
  | external (id : ExternalId)
deriving DecidableEq, Repr, Inhabited

namespace GraphNode

/-- The key of a node. -/
def key : GraphNode → NodeKey
  | file id _ => .file id
  | component id _ _ => .component id
  | external id _ => .external id

/-- The path of a file, the name of anything else. -/
def name : GraphNode → String
  | file _ path => path
  | component _ name _ => name
  | external _ name => name

/-- The node is an external symbol. -/
def isExternal : GraphNode → Bool
  | external .. => true
  | _ => false

/-- The node in words. -/
def describe : GraphNode → String
  | file _ path => s!"file {path}"
  | component _ name kind => kind.name ++ " " ++ name
  | external _ name => s!"external {name}"

end GraphNode

/-- The sorts of edges. -/
inductive EdgeKind where
  | uses
  | inside
deriving DecidableEq, Repr, Inhabited

/-- The name of a sort of edges. -/
def EdgeKind.name : EdgeKind → String
  | .uses => "USES"
  | .inside => "INSIDE"

/-- An edge between two nodes. -/
structure Edge where
  source : NodeKey
  kind : EdgeKind
  target : NodeKey
deriving DecidableEq, Repr, Inhabited

/-- Nodes and edges in the order in which they were added. -/
structure GraphView where
  nodes : List GraphNode
  edges : List Edge
deriving DecidableEq, Repr, Inhabited

namespace GraphView

/-- Keep the first node of each key. -/
def keepFirst (nodes : List GraphNode) : List GraphNode :=
  nodes.foldl
    (fun kept node => if kept.any (·.key == node.key) then kept else kept ++ [node]) []

/-- The edges of a component: inside of its file and parent, then what it uses. -/
def edgesOf (c : Component) : List Edge :=
  let source := NodeKey.component c.id
  ⟨source, .inside, .file c.fileId⟩
    :: (c.parentId.toList.map fun parent => ⟨source, .inside, .component parent⟩)
    ++ (c.linkedIds.map fun target => ⟨source, .uses, .component target⟩)
    ++ (c.externalIds.map fun target => ⟨source, .uses, .external target⟩)

/-- All nodes of a graph, with repetitions: files, external symbols, components. -/
def nodesOf (graph : CodeGraph) : List GraphNode :=
  (graph.files.map fun file => .file file.id file.relativePath)
    ++ (graph.externalSymbols.entries.map fun (name, id) => .external id name)
    ++ (graph.components.map fun c => .component c.id c.qualifiedName c.kind)

/-- The view of a graph. -/
def ofGraph (graph : CodeGraph) : GraphView :=
  let nodes := keepFirst (nodesOf graph)
  let present (key : NodeKey) : Bool := nodes.any (·.key == key)
  { nodes := nodes
    edges := (graph.components.flatMap edgesOf).filter fun edge =>
      present edge.source && present edge.target }

/-- The node with a key. -/
def node? (view : GraphView) (key : NodeKey) : Option GraphNode :=
  view.nodes.find? (·.key == key)

/-- Nodes in the order of their names; nodes of one name keep their order. -/
def sortByName (nodes : List GraphNode) : List GraphNode :=
  Text.sortBy GraphNode.name nodes

/-- The targets of the uses of a node, the newest edge first. -/
def usesOf (view : GraphView) (key : NodeKey) : List NodeKey :=
  (view.edges.reverse.filter fun edge => edge.kind == .uses && edge.source == key).map (·.target)

/-- The sources of the uses of a node, the newest edge first. -/
def usersOf (view : GraphView) (key : NodeKey) : List NodeKey :=
  (view.edges.reverse.filter fun edge => edge.kind == .uses && edge.target == key).map (·.source)

/-- What a component uses, by name. -/
def dependencies (view : GraphView) (id : ComponentId) : List GraphNode :=
  sortByName ((view.usesOf (.component id)).filterMap view.node?)

/-- The components that use a component, by name. -/
def dependents (view : GraphView) (id : ComponentId) : List GraphNode :=
  sortByName ((view.usersOf (.component id)).filterMap view.node?)

/-- The component's qualified name is the given one or ends with it after a dot. -/
def isNamed (name : String) : GraphNode → Bool
  | .component _ qualifiedName _ =>
    qualifiedName == name || Text.endsWith ("." ++ name) qualifiedName
  | _ => false

/-- The components of a name or dotted suffix, by name. -/
def findByName (view : GraphView) (name : String) : List GraphNode :=
  sortByName (view.nodes.filter (isNamed name))

/-- Keys that are met for the first time, in the order given. -/
def unseen (seen : List NodeKey) : List NodeKey → List NodeKey
  | [] => []
  | key :: rest =>
    if seen.contains key then unseen seen rest else key :: unseen (key :: seen) rest

/-- Follow uses from the keys on a stack, the last discovered first. Each key is discovered once;
`fuel` bounds the number of keys that are taken from the stack. -/
def explore (view : GraphView) : Nat → List NodeKey → List NodeKey → List NodeKey
  | 0, _, reached => reached
  | _, [], reached => reached
  | fuel + 1, key :: stack, reached =>
    let found := unseen reached (view.usesOf key)
    explore view fuel (found.reverse ++ stack) (reached ++ found)

/-- Everything a component uses, directly or through others, without itself, by name. -/
def transitiveDependencies (view : GraphView) (id : ComponentId) : List GraphNode :=
  let start := NodeKey.component id
  let reached := explore view (view.nodes.length + 1) [start] [start]
  sortByName ((reached.drop 1).filterMap view.node?)

/-- Counts of a graph. -/
structure Stats where
  files : Nat
  components : Nat
  externalSymbols : Nat
  internalEdges : Nat
  externalEdges : Nat
  /-- The kinds that occur, by name, with the number of components of each. -/
  componentsByKind : List (String × Nat)
deriving DecidableEq, Repr, Inhabited

/-- The kind of a component node. -/
def kindOf? : GraphNode → Option ComponentKind
  | .component _ _ kind => some kind
  | _ => none

/-- Number of nodes that are files. -/
def fileCount (view : GraphView) : Nat :=
  view.nodes.countP fun
    | .file .. => true
    | _ => false

/-- The target of an edge is an external symbol. -/
def toExternal (edge : Edge) : Bool :=
  match edge.target with
  | .external _ => true
  | _ => false

/-- The counts of a view. -/
def stats (view : GraphView) : Stats :=
  let kinds := (view.nodes.filterMap kindOf?).map ComponentKind.name
  let uses := view.edges.filter (·.kind == .uses)
  { files := view.fileCount
    components := kinds.length
    externalSymbols := view.nodes.countP GraphNode.isExternal
    internalEdges := uses.countP fun edge => !toExternal edge
    externalEdges := uses.countP toExternal
    componentsByKind := (Text.sortedSet kinds).map fun kind => (kind, kinds.count kind) }

end GraphView

end CodeAtlas
