import CodeAtlas.Proofs.KeyedLists
import CodeAtlas.Query

/-!
# The view of a graph

The view keeps the first node of each key, so a key finds in it what the graph has under the key:
the first file or component with the identifier, or the first external name that has it. Of the
edges of the components those remain that lead to a node.

## Main definitions

* `CodeGraph.nodeAt?`: the node of a key, read off the graph.
* `CodeGraph.Uses`: one node uses another.
* `CodeGraph.useEdges`: the edges of a component to what it uses.

## Main results

* `GraphView.node?_ofGraph`: what the view finds under a key.
* `GraphView.uses_ofGraph`: the edges of the view that are uses.
* `GraphView.mem_usesOf`: what a node of the view uses.
-/

namespace CodeAtlas

/-! ### Nodes and uses of a graph -/

/-- The node of a component. -/
def Component.node (c : Component) : GraphNode :=
  .component c.id c.qualifiedName c.kind

/-- What a component is linked to, components before external symbols. -/
def Component.targets (c : Component) : List NodeKey :=
  c.linkedIds.map .component ++ c.externalIds.map .external

namespace CodeGraph

/-- The node that the graph has under a key. -/
def nodeAt? (graph : CodeGraph) : NodeKey → Option GraphNode
  | .file id => (graph.file? id).map fun file => .file file.id file.relativePath
  | .component id => (graph.component? id).map Component.node
  | .external id => (graph.externalSymbols.nameOf? id).map (.external id)

/-- A component is linked to a node that exists. -/
def Uses (graph : CodeGraph) (source target : NodeKey) : Prop :=
  ∃ c ∈ graph.components, source = .component c.id ∧ target ∈ c.targets ∧
    (graph.nodeAt? target).isSome = true

/-- The edges of a component to what it uses. -/
def useEdges (graph : CodeGraph) (c : Component) : List Edge :=
  (c.targets.filter fun target => (graph.nodeAt? target).isSome).map fun target =>
    ⟨.component c.id, .uses, target⟩

theorem nodeAt?_component {graph : CodeGraph} (hids : (graph.components.map (·.id)).Nodup)
    {c : Component} (hc : c ∈ graph.components) :
    graph.nodeAt? (.component c.id) = some c.node := by
  have hfound : graph.component? c.id = some c :=
    Keyed.find?_eq_some (fun c : Component => c.id) hids hc
  rw [nodeAt?, hfound, Option.map_some]

theorem isSome_nodeAt?_component {graph : CodeGraph} {c : Component} (hc : c ∈ graph.components) :
    (graph.nodeAt? (.component c.id)).isSome = true := by
  rw [nodeAt?, Option.isSome_map]
  exact List.find?_isSome.mpr ⟨c, hc, beq_self_eq_true _⟩

end CodeGraph

namespace GraphView

variable {graph : CodeGraph}

/-! ### Nodes -/

theorem nodes_eq_firsts (graph : CodeGraph) :
    (ofGraph graph).nodes = Keyed.firsts GraphNode.key (nodesOf graph) :=
  rfl

/-- No two nodes have one key. -/
theorem nodup_keys (graph : CodeGraph) : ((ofGraph graph).nodes.map GraphNode.key).Nodup := by
  rw [nodes_eq_firsts]
  exact Keyed.nodup_map_firsts GraphNode.key (nodesOf graph)

/-- The key of a node that is found is the one that was looked for. -/
theorem key_of_node? {view : GraphView} {key : NodeKey} {node : GraphNode}
    (h : view.node? key = some node) : node ∈ view.nodes ∧ node.key = key := by
  have hkey := List.find?_some h
  exact ⟨List.mem_of_find?_eq_some h, beq_iff_eq.mp hkey⟩

/-- Under a key the view has the node of the graph. -/
theorem node?_ofGraph (graph : CodeGraph) (key : NodeKey) :
    (ofGraph graph).node? key = graph.nodeAt? key := by
  rw [node?, nodes_eq_firsts, Keyed.find?_firsts GraphNode.key, nodesOf, List.find?_append,
    List.find?_append, List.find?_map, List.find?_map, List.find?_map]
  -- Nodes of another sort than the key are passed over.
  have hnone {α : Type} (xs : List α) : xs.find? (fun _ => false) = none := by simp
  cases key with
  | file id =>
    simp only [Function.comp_def, GraphNode.key, beq_eq_decide, reduceCtorEq, decide_false, hnone,
      Option.map_none, Option.or_none, NodeKey.file.injEq, CodeGraph.nodeAt?, CodeGraph.file?]
  | component id =>
    simp only [Function.comp_def, GraphNode.key, beq_eq_decide, reduceCtorEq, decide_false, hnone,
      Option.map_none, Option.none_or, NodeKey.component.injEq, CodeGraph.nodeAt?,
      CodeGraph.component?]
    rfl
  | external id =>
    simp only [Function.comp_def, GraphNode.key, beq_eq_decide, reduceCtorEq, decide_false, hnone,
      Option.map_none, Option.none_or, Option.or_none, NodeKey.external.injEq, CodeGraph.nodeAt?,
      SymbolTable.nameOf?, Option.map_map]
    refine Option.map_congr fun entry hentry => ?_
    have hid := List.find?_some hentry
    rw [← of_decide_eq_true hid]

/-- A key is present when the graph has a node under it. -/
theorem any_key_ofGraph (graph : CodeGraph) (key : NodeKey) :
    (ofGraph graph).nodes.any (fun node => node.key == key) = (graph.nodeAt? key).isSome := by
  rw [← node?_ofGraph, node?, List.isSome_find?]

/-! ### Edges -/

/-- All edges of a component start at it. -/
theorem source_of_mem_edgesOf {c : Component} {edge : Edge} (h : edge ∈ edgesOf c) :
    edge.source = .component c.id := by
  simp only [edgesOf, List.mem_append, List.mem_cons, List.mem_map] at h
  rcases h with ((rfl | ⟨parent, -, rfl⟩) | ⟨target, -, rfl⟩) | ⟨target, -, rfl⟩ <;> rfl

/-- Of the edges of a component those to its targets are uses. -/
theorem filter_uses_edgesOf (c : Component) :
    (edgesOf c).filter (fun edge => edge.kind == .uses) =
      c.targets.map fun target => ⟨.component c.id, .uses, target⟩ := by
  have hother : ∀ parents : List ComponentId, (parents.map fun parent =>
      (⟨.component c.id, .inside, .component parent⟩ : Edge)).filter
        (fun edge => edge.kind == .uses) = [] := by
    intro parents
    rw [List.filter_eq_nil_iff]
    intro edge hedge
    obtain ⟨parent, -, rfl⟩ := List.mem_map.mp hedge
    simp
  have huses : ∀ (key : String → NodeKey) (ids : List String), (ids.map fun id =>
      (⟨.component c.id, .uses, key id⟩ : Edge)).filter (fun edge => edge.kind == .uses) =
        ids.map fun id => ⟨.component c.id, .uses, key id⟩ := by
    intro key ids
    rw [List.filter_eq_self]
    intro edge hedge
    obtain ⟨id, -, rfl⟩ := List.mem_map.mp hedge
    simp
  simp only [edgesOf, List.filter_append, List.filter_cons, hother, huses, Component.targets,
    List.map_append, List.map_map]
  rfl

/-- The uses of the view are those of each component, in order. -/
theorem uses_ofGraph (graph : CodeGraph) :
    (ofGraph graph).edges.filter (fun edge => edge.kind == .uses) =
      graph.components.flatMap graph.useEdges := by
  have hpresent : ∀ edge ∈ graph.components.flatMap edgesOf,
      (edge.kind == .uses && ((ofGraph graph).nodes.any (·.key == edge.source) &&
        (ofGraph graph).nodes.any (·.key == edge.target))) =
      ((graph.nodeAt? edge.target).isSome && edge.kind == .uses) := by
    intro edge hedge
    obtain ⟨c, hc, hedge⟩ := List.mem_flatMap.mp hedge
    rw [any_key_ofGraph, any_key_ofGraph, source_of_mem_edgesOf hedge,
      CodeGraph.isSome_nodeAt?_component hc, Bool.true_and, Bool.and_comm]
  have hedges : (ofGraph graph).edges = (graph.components.flatMap edgesOf).filter fun edge =>
      (ofGraph graph).nodes.any (·.key == edge.source) &&
        (ofGraph graph).nodes.any (·.key == edge.target) :=
    rfl
  rw [hedges, List.filter_filter, List.filter_congr hpresent, List.filter_flatMap]
  refine List.flatMap_congr fun c _ => ?_
  rw [← List.filter_filter, filter_uses_edgesOf, List.filter_map, CodeGraph.useEdges]
  rfl

/-- What a node uses, by the uses that start there. -/
theorem usesOf_ofGraph (graph : CodeGraph) (key : NodeKey) :
    (ofGraph graph).usesOf key =
      (((graph.components.flatMap graph.useEdges).filter fun edge => edge.source == key).map
        (·.target)).reverse := by
  rw [usesOf, List.filter_reverse, List.map_reverse, ← uses_ofGraph, List.filter_filter]
  simp only [Bool.and_comm]

/-- What uses a node, by the uses that end there. -/
theorem usersOf_ofGraph (graph : CodeGraph) (key : NodeKey) :
    (ofGraph graph).usersOf key =
      (((graph.components.flatMap graph.useEdges).filter fun edge => edge.target == key).map
        (·.source)).reverse := by
  rw [usersOf, List.filter_reverse, List.map_reverse, ← uses_ofGraph, List.filter_filter]
  simp only [Bool.and_comm]

theorem mem_useEdges {edge : Edge} :
    edge ∈ graph.components.flatMap graph.useEdges ↔
      edge.kind = .uses ∧ graph.Uses edge.source edge.target := by
  simp only [List.mem_flatMap, CodeGraph.useEdges, List.mem_map, List.mem_filter, CodeGraph.Uses]
  constructor
  · rintro ⟨c, hc, target, ⟨htarget, hsome⟩, rfl⟩
    exact ⟨rfl, c, hc, rfl, htarget, hsome⟩
  · rintro ⟨hkind, c, hc, hsource, htarget, hsome⟩
    refine ⟨c, hc, edge.target, ⟨htarget, hsome⟩, ?_⟩
    rw [← hsource, ← hkind]

/-- In the view a node uses what it uses in the graph. -/
theorem mem_usesOf {source target : NodeKey} :
    target ∈ (ofGraph graph).usesOf source ↔ graph.Uses source target := by
  rw [usesOf_ofGraph, List.mem_reverse, List.mem_map]
  constructor
  · rintro ⟨edge, hedge, rfl⟩
    obtain ⟨hmem, hsource⟩ := List.mem_filter.mp hedge
    rw [← beq_iff_eq.mp hsource]
    exact (mem_useEdges.mp hmem).2
  · intro huses
    exact ⟨⟨source, .uses, target⟩, List.mem_filter.mpr
      ⟨mem_useEdges.mpr ⟨rfl, huses⟩, beq_self_eq_true _⟩, rfl⟩

/-- What is used is there. -/
theorem exists_node_of_uses {source target : NodeKey} (h : graph.Uses source target) :
    ∃ node ∈ (ofGraph graph).nodes, (ofGraph graph).node? target = some node ∧
      node.key = target := by
  obtain ⟨c, -, -, -, hsome⟩ := h
  obtain ⟨node, hnode⟩ := Option.isSome_iff_exists.mp hsome
  rw [← node?_ofGraph] at hnode
  exact ⟨node, (key_of_node? hnode).1, hnode, (key_of_node? hnode).2⟩

end GraphView

end CodeAtlas
