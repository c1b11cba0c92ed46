import CodeAtlas.CodeGraph

/-!
# Filtering components

Only the components whose names satisfy a predicate are kept. Links to dropped components are taken
away, and so is a parent that was dropped; everything else stays.
-/

namespace CodeAtlas

/-- Take the links and the parent away that lead to dropped components. -/
def Component.without (dropped : List ComponentId) (c : Component) : Component :=
  { c with
    linkedIds := c.linkedIds.filter fun target => !dropped.contains target
    parentId := c.parentId.filter fun parent => !dropped.contains parent }

/-- Keep the components whose qualified names satisfy a predicate. -/
def filterComponents (keep : String → Bool) (components : List Component) : List Component :=
  let kept := components.filter fun c => keep c.qualifiedName
  let dropped := (components.filter fun c => !keep c.qualifiedName).map (·.id)
  kept.map (Component.without dropped)

/-- Keep the components of a graph whose names satisfy a predicate. -/
def CodeGraph.filter (graph : CodeGraph) (keep : String → Bool) : CodeGraph :=
  { graph with components := filterComponents keep graph.components }

/-- Keep the components of a graph whose names satisfy a predicate, and count the others. -/
def CodeGraph.filterCounted (graph : CodeGraph) (keep : String → Bool) : CodeGraph × Nat :=
  let kept := graph.filter keep
  (kept, graph.components.length - kept.components.length)

end CodeAtlas
