import CodeAtlas.Proofs.Query.Search
import CodeAtlas.Proofs.Query.View
import CodeAtlas.Proofs.Text.Sorted

/-!
# What queries about dependencies answer

Where components have distinct identifiers, a query is answered from the links of the graph alone.
The dependencies of a component are the nodes of its links, as often as it has them, without the
links that lead nowhere. The dependents of a component tell the same links from the other end. The
transitive dependencies are what can be reached along links, each once, without the component
itself, also where links go round in a circle.

## Main results

* `GraphView.dependencies_perm`: the dependencies of a component.
* `GraphView.count_dependencies`: dependencies and dependents tell the same links.
* `GraphView.mem_transitiveDependencies`: the transitive dependencies of a component.
* `GraphView.view_faithful`: all of this together.
-/

namespace CodeAtlas

namespace GraphView

variable {graph : CodeGraph}

/-! ### Dependencies -/

/-- The uses that start at a component are its own. -/
theorem filter_source_useEdges (hids : (graph.components.map (·.id)).Nodup) {c : Component}
    (hc : c ∈ graph.components) :
    (graph.components.flatMap graph.useEdges).filter
      (fun edge => edge.source == .component c.id) = graph.useEdges c := by
  obtain ⟨before, after, hsplit⟩ := List.append_of_mem hc
  rw [hsplit, List.map_append, List.map_cons, List.nodup_append, List.nodup_cons] at hids
  obtain ⟨-, ⟨hafter, -⟩, hbefore⟩ := hids
  have hothers : ∀ others : List Component, c.id ∉ others.map (·.id) →
      (others.flatMap graph.useEdges).filter (fun edge => edge.source == .component c.id) = [] := by
    intro others hnot
    refine List.filter_eq_nil_iff.mpr fun edge hedge hsource => hnot ?_
    obtain ⟨d, hd, hedge⟩ := List.mem_flatMap.mp hedge
    obtain ⟨target, -, rfl⟩ := List.mem_map.mp hedge
    exact List.mem_map.mpr ⟨d, hd, NodeKey.component.inj (beq_iff_eq.mp hsource)⟩
  have hown : (graph.useEdges c).filter (fun edge => edge.source == .component c.id) =
      graph.useEdges c := by
    refine List.filter_eq_self.mpr fun edge hedge => ?_
    obtain ⟨target, -, rfl⟩ := List.mem_map.mp hedge
    exact beq_self_eq_true _
  rw [hsplit, List.flatMap_append, List.flatMap_cons, List.filter_append, List.filter_append, hown,
    hothers before fun hmem => hbefore c.id hmem c.id (by simp) rfl, hothers after hafter,
    List.nil_append, List.append_nil]

/-- A component uses its targets that are there, the last one first. -/
theorem usesOf_component (hids : (graph.components.map (·.id)).Nodup) {c : Component}
    (hc : c ∈ graph.components) :
    (ofGraph graph).usesOf (.component c.id) =
      (c.targets.filter fun target => (graph.nodeAt? target).isSome).reverse := by
  rw [usesOf_ofGraph, filter_source_useEdges hids hc, CodeGraph.useEdges, List.map_map]
  exact congrArg _ (List.map_id' _)

/-- The dependencies of a component are the nodes of its targets. -/
theorem dependencies_perm (hids : (graph.components.map (·.id)).Nodup) {c : Component}
    (hc : c ∈ graph.components) :
    ((ofGraph graph).dependencies c.id).Perm (c.targets.filterMap graph.nodeAt?) := by
  have hnodes : (ofGraph graph).node? = graph.nodeAt? := funext (node?_ofGraph graph)
  have hpresent : (c.targets.filter fun target => (graph.nodeAt? target).isSome).filterMap
      graph.nodeAt? = c.targets.filterMap graph.nodeAt? := by
    rw [List.filterMap_filter]
    refine List.filterMap_congr fun target _ => ?_
    cases graph.nodeAt? target <;> rfl
  rw [dependencies, usesOf_component hids hc, hnodes, ← hpresent]
  exact (Text.sortBy_perm _ _).trans ((List.reverse_perm _).filterMap _)

/-- Only the key of a component finds its node. -/
theorem node?_eq_some_node (hids : (graph.components.map (·.id)).Nodup) {c : Component}
    (hc : c ∈ graph.components) {key : NodeKey} :
    ((ofGraph graph).node? key == some c.node) = (key == .component c.id) := by
  rw [Bool.eq_iff_iff, beq_iff_eq, beq_iff_eq]
  constructor
  · exact fun h => (key_of_node? h).2.symm
  · rintro rfl
    rw [node?_ofGraph, CodeGraph.nodeAt?_component hids hc]

/-- How often one component uses another. -/
theorem count_dependencies_eq_countP (hids : (graph.components.map (·.id)).Nodup)
    {c : Component} (hc : c ∈ graph.components) (id : ComponentId) :
    ((ofGraph graph).dependencies id).count c.node =
      (graph.components.flatMap graph.useEdges).countP fun edge =>
        edge.source == .component id && edge.target == .component c.id := by
  rw [dependencies, sortByName, (Text.sortBy_perm _ _).count_eq, List.count_filterMap,
    usesOf_ofGraph, List.countP_reverse, List.countP_map, List.countP_filter]
  simp only [Function.comp_def, node?_eq_some_node hids hc, Bool.and_comm]

/-- How often one component is used by another. -/
theorem count_dependents_eq_countP (hids : (graph.components.map (·.id)).Nodup)
    {c : Component} (hc : c ∈ graph.components) (id : ComponentId) :
    ((ofGraph graph).dependents id).count c.node =
      (graph.components.flatMap graph.useEdges).countP fun edge =>
        edge.source == .component c.id && edge.target == .component id := by
  rw [dependents, sortByName, (Text.sortBy_perm _ _).count_eq, List.count_filterMap,
    usersOf_ofGraph, List.countP_reverse, List.countP_map, List.countP_filter]
  simp only [Function.comp_def, node?_eq_some_node hids hc]

/-! ### Transitive dependencies -/

theorem closed_ofGraph {c : Component} (hc : c ∈ graph.components) :
    (ofGraph graph).Closed (.component c.id) := by
  refine ⟨?_, fun source target htarget => ?_⟩
  · obtain ⟨node, hnode⟩ := Option.isSome_iff_exists.mp (CodeGraph.isSome_nodeAt?_component hc)
    rw [← node?_ofGraph] at hnode
    exact List.mem_map.mpr ⟨node, key_of_node? hnode⟩
  · obtain ⟨node, hnode, -, hkey⟩ := exists_node_of_uses (mem_usesOf.mp htarget)
    exact List.mem_map.mpr ⟨node, hnode, hkey⟩

/-- What is reached from a component in the end: it and what can be reached from it, each once. -/
theorem exists_reached {c : Component} (hc : c ∈ graph.components) :
    ∃ others : List NodeKey,
      explore (ofGraph graph) ((ofGraph graph).nodes.length + 1) [.component c.id]
        [.component c.id] = .component c.id :: others ∧
      (NodeKey.component c.id :: others).Nodup ∧
      ∀ key, key ∈ others ↔ key ≠ .component c.id ∧
        Relation.TransGen graph.Uses (.component c.id) key := by
  have hsearched := searched_explore (closed_ofGraph hc) (Nat.le_succ _)
    (searched_start (ofGraph graph) (.component c.id))
  obtain ⟨others, heq⟩ := List.head?_eq_some_iff.mp hsearched.first
  have hnodup := hsearched.nodup
  rw [heq] at hnodup
  refine ⟨others, heq, hnodup, fun key => ?_⟩
  have hreaches : key ∈ NodeKey.component c.id :: others ↔
      Relation.ReflTransGen graph.Uses (.component c.id) key := by
    rw [← heq, hsearched.mem_iff]
    simp only [Reaches, mem_usesOf]
  rw [List.mem_cons, Relation.reflTransGen_iff_eq_or_transGen] at hreaches
  constructor
  · intro hkey
    have hne : key ≠ .component c.id := fun h => (List.nodup_cons.mp hnodup).1 (h ▸ hkey)
    exact ⟨hne, (hreaches.mp (Or.inr hkey)).resolve_left hne⟩
  · rintro ⟨hne, htrans⟩
    exact (hreaches.mpr (Or.inr htrans)).resolve_left hne

/-- The transitive dependencies have one node for each key that can be reached. -/
theorem exists_transitiveDependencies_perm {c : Component} (hc : c ∈ graph.components) :
    ∃ others : List NodeKey, others.Nodup ∧
      ((ofGraph graph).transitiveDependencies c.id).Perm (others.filterMap graph.nodeAt?) ∧
      ∀ key, key ∈ others ↔ key ≠ .component c.id ∧
        Relation.TransGen graph.Uses (.component c.id) key := by
  obtain ⟨others, heq, hnodup, hmem⟩ := exists_reached hc
  have hnodes : (ofGraph graph).node? = graph.nodeAt? := funext (node?_ofGraph graph)
  refine ⟨others, (List.nodup_cons.mp hnodup).2, ?_, hmem⟩
  rw [transitiveDependencies, heq, hnodes]
  exact Text.sortBy_perm _ _

/-- Different keys have different nodes. -/
theorem nodup_filterMap_nodeAt? {keys : List NodeKey} (h : keys.Nodup) :
    (keys.filterMap graph.nodeAt?).Nodup := by
  refine h.filterMap fun key key' node hnode hnode' => ?_
  rw [Option.mem_def, ← node?_ofGraph] at hnode hnode'
  exact (key_of_node? hnode).2.symm.trans (key_of_node? hnode').2

/-- The transitive dependencies of a component are the nodes that can be reached along one use or
more, without itself. -/
theorem mem_transitiveDependencies {c : Component} (hc : c ∈ graph.components) {node : GraphNode} :
    node ∈ (ofGraph graph).transitiveDependencies c.id ↔
      graph.nodeAt? node.key = some node ∧ node.key ≠ .component c.id ∧
        Relation.TransGen graph.Uses (.component c.id) node.key := by
  obtain ⟨others, -, hperm, hmem⟩ := exists_transitiveDependencies_perm hc
  rw [hperm.mem_iff, List.mem_filterMap]
  constructor
  · rintro ⟨key, hkey, hnode⟩
    have hview := hnode
    rw [← node?_ofGraph] at hview
    rw [(key_of_node? hview).2]
    exact ⟨hnode, (hmem key).mp hkey⟩
  · rintro ⟨hnode, hreached⟩
    exact ⟨node.key, (hmem node.key).mpr hreached, hnode⟩

/-- Queries tell the links of a graph. The dependencies of a component are the nodes of its links
that lead somewhere, with repetitions; a component is among the dependencies of another as often as
this one is among its dependents. The search for transitive dependencies ends by itself, so a larger
limit on its steps makes no difference, and it finds each node once that can be reached along one
link or more, but not the component itself. Answers come by name. -/
theorem view_faithful (hids : (graph.components.map (·.id)).Nodup) {c : Component}
    (hc : c ∈ graph.components) :
    let view := ofGraph graph
    let start := NodeKey.component c.id
    (view.dependencies c.id).Perm (c.targets.filterMap graph.nodeAt?) ∧
    (view.dependencies c.id).Pairwise (fun a b => a.name ≤ b.name) ∧
    (∀ d ∈ graph.components,
      (view.dependencies c.id).count d.node = (view.dependents d.id).count c.node) ∧
    (∀ more, explore view (view.nodes.length + 1 + more) [start] [start] =
      explore view (view.nodes.length + 1) [start] [start]) ∧
    (view.transitiveDependencies c.id).Nodup ∧
    (view.transitiveDependencies c.id).Pairwise (fun a b => a.name ≤ b.name) ∧
    ∀ node, node ∈ view.transitiveDependencies c.id ↔ graph.nodeAt? node.key = some node ∧
      node.key ≠ start ∧ Relation.TransGen graph.Uses start node.key := by
  intro view start
  obtain ⟨others, hnodup, hperm, -⟩ := exists_transitiveDependencies_perm hc
  refine ⟨dependencies_perm hids hc, Text.pairwise_sortBy _ _, fun d hd => ?_, fun more => ?_,
    hperm.nodup_iff.mpr (nodup_filterMap_nodeAt? hnodup), Text.pairwise_sortBy _ _,
    fun node => mem_transitiveDependencies hc⟩
  · rw [count_dependencies_eq_countP hids hd, count_dependents_eq_countP hids hc]
  · exact explore_add (closed_ofGraph hc) (Nat.le_succ _) (searched_start view start) more

/-! ### Links in a circle -/

/-- A component with the given links. -/
def ringPart (id : ComponentId) (linkedIds : List ComponentId) (externalIds : List ExternalId) :
    Component :=
  ⟨id, "ring." ++ id, "", .function, "ring", none, [], linkedIds, externalIds, []⟩

/-- Three components in a circle. The first is also linked to itself, twice to the second, to
nothing that exists, and to an external symbol with two names. -/
def ringGraph : CodeGraph where
  components :=
    [ringPart "a" ["b", "a", "gone", "b"] ["e", "gone"], ringPart "b" ["c"] [],
      ringPart "c" ["a"] []]
  files := []
  externalSymbols := .ofList [("open", "e"), ("close", "e")]

theorem view_faithful_ring :
    ((ofGraph ringGraph).dependencies "a").Perm
      [(ringPart "b" ["c"] []).node, (ringPart "a" [] []).node, (ringPart "b" ["c"] []).node,
        .external "e" "close"] ∧
    ((ofGraph ringGraph).dependents "b").count (ringPart "a" [] []).node = 2 ∧
    (ringPart "c" [] []).node ∈ (ofGraph ringGraph).transitiveDependencies "a" ∧
    (ringPart "a" [] []).node ∉ (ofGraph ringGraph).transitiveDependencies "a" ∧
    ((ofGraph ringGraph).transitiveDependencies "a").Nodup := by
  have hids : (ringGraph.components.map (·.id)).Nodup := by decide
  have hstart : ringPart "a" ["b", "a", "gone", "b"] ["e", "gone"] ∈ ringGraph.components :=
    List.mem_cons_self
  have hnext : ringPart "b" ["c"] [] ∈ ringGraph.components := by decide
  obtain ⟨hperm, -, hcount, -, hnodup, -, hmem⟩ := view_faithful hids hstart
  have hnodes : (ringPart "a" ["b", "a", "gone", "b"] ["e", "gone"]).targets.filterMap
      ringGraph.nodeAt? = [(ringPart "b" ["c"] []).node, (ringPart "a" [] []).node,
        (ringPart "b" ["c"] []).node, .external "e" "close"] := by decide +kernel
  rw [hnodes] at hperm
  refine ⟨hperm, ?_, (hmem _).mpr ⟨by decide +kernel, by decide, ?_⟩, fun hself => ?_, hnodup⟩
  · exact (hcount _ hnext).symm.trans ((hperm.count_eq _).trans (by decide +kernel))
  · have hfirst : ringGraph.Uses (.component "a") (.component "b") :=
      ⟨_, hstart, rfl, by decide, by decide +kernel⟩
    have hsecond : ringGraph.Uses (.component "b") (.component "c") :=
      ⟨_, hnext, rfl, by decide, by decide +kernel⟩
    exact (Relation.TransGen.single hfirst).tail hsecond
  · exact ((hmem _).mp hself).2.1 rfl

end GraphView

end CodeAtlas
