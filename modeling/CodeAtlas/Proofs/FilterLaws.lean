import CodeAtlas.Filter
import Mathlib.Data.List.Forall2

/-!
# Laws of filters

A filter keeps the components whose names satisfy a predicate, in their order, and takes away what
leads from them to the components it drops. Identifiers may be repeated, and they may lead nowhere.
What is taken away is decided by the identifier alone: a link is lost if any component with its
target's identifier is dropped, also when another one with that identifier is kept.

The second of two filters sees the links and the parents that the first has left. What it drops is
what it would have dropped at first, less the components that are gone already, and these have taken
their links with them. So two filters are one filter, in either order.

## Main definitions

* `CodeGraph.Drops`: a filter drops a component with the identifier.
* `Component.PrunedBy`: a component has lost the links and the parent to some identifiers, and
  nothing else.

## Main results

* `filterComponents_filterComponents`, `CodeGraph.filter_filter`: two filters are one.
* `CodeGraph.filter_laws`: what a filter keeps, counts and prunes, and how two filters commute.
-/

namespace CodeAtlas

/-! ### Dropped components -/

/-- The identifiers of the components that a filter drops. -/
def droppedIds (keep : String → Bool) (components : List Component) : List ComponentId :=
  (components.filter fun c => !keep c.qualifiedName).map (·.id)

/-- A filter drops a component with the identifier. -/
def CodeGraph.Drops (graph : CodeGraph) (keep : String → Bool) (id : ComponentId) : Prop :=
  ∃ c ∈ graph.components, keep c.qualifiedName = false ∧ c.id = id

section Components

variable {keep : String → Bool} {components : List Component} {c : Component}

theorem mem_droppedIds {id : ComponentId} :
    id ∈ droppedIds keep components ↔
      ∃ c ∈ components, keep c.qualifiedName = false ∧ c.id = id := by
  simp [droppedIds, and_assoc]

theorem mem_filterComponents :
    c ∈ filterComponents keep components ↔
      ∃ d ∈ components, keep d.qualifiedName = true ∧
        d.without (droppedIds keep components) = c := by
  simp only [filterComponents, droppedIds, List.mem_map, List.mem_filter, and_assoc]

end Components

/-! ### Pruning -/

namespace Component

variable {dropped dropped' : List ComponentId} {c : Component}

/-- Only which identifiers are dropped counts. -/
theorem without_congr_mem (h : ∀ id, id ∈ dropped ↔ id ∈ dropped') (c : Component) :
    c.without dropped = c.without dropped' := by
  have hsame : (fun id => !dropped.contains id) = fun id => !dropped'.contains id := by
    funext id
    rw [Bool.eq_iff_iff, Bool.not_eq_true', Bool.not_eq_true', ← Bool.not_eq_true,
      ← Bool.not_eq_true, List.contains_iff_mem, List.contains_iff_mem, h id]
  simp only [without, hsame]

/-- Pruning twice is pruning once by all that is dropped. -/
theorem without_without (c : Component) (dropped dropped' : List ComponentId) :
    (c.without dropped).without dropped' = c.without (dropped ++ dropped') := by
  simp only [without, List.filter_filter, Option.filter_filter, List.contains_append, Bool.not_or,
    Bool.and_comm]

/-- The component has lost the links and the parent to some identifiers, and is otherwise as it
was. -/
structure PrunedBy (Drops : ComponentId → Prop) (c pruned : Component) : Prop where
  linkedIds_sublist : pruned.linkedIds.Sublist c.linkedIds
  not_drops_of_mem : ∀ id ∈ pruned.linkedIds, ¬ Drops id
  count_linkedIds : ∀ id, ¬ Drops id → pruned.linkedIds.count id = c.linkedIds.count id
  parentId_eq_some : ∀ id, pruned.parentId = some id ↔ c.parentId = some id ∧ ¬ Drops id
  others_eq : { pruned with linkedIds := c.linkedIds, parentId := c.parentId } = c

theorem prunedBy_without (c : Component) {Drops : ComponentId → Prop}
    (h : ∀ id, id ∈ dropped ↔ Drops id) : c.PrunedBy Drops (c.without dropped) where
  linkedIds_sublist := List.filter_sublist
  not_drops_of_mem := by
    intro id hid
    have hnot : id ∉ dropped := by simpa using (List.mem_filter.mp hid).2
    rwa [h] at hnot
  count_linkedIds := by
    intro id hkept
    rw [← h] at hkept
    exact List.count_filter (by simpa using hkept)
  parentId_eq_some := by
    intro id
    rw [← h]
    simp [without, Option.filter_eq_some_iff]
  others_eq := rfl

end Component

/-! ### Filtering twice -/

/-- What two filters drop one after the other is what one of them would drop. -/
theorem mem_droppedIds_append {p q : String → Bool} {components : List Component}
    {id : ComponentId} :
    id ∈ droppedIds p components ++ droppedIds q (filterComponents p components) ↔
      id ∈ droppedIds (fun name => p name && q name) components := by
  simp only [List.mem_append, mem_droppedIds, mem_filterComponents, Bool.and_eq_false_iff]
  constructor
  · rintro (⟨c, hc, hp, rfl⟩ | ⟨_, ⟨c, hc, hp, rfl⟩, hq, rfl⟩)
    · exact ⟨c, hc, Or.inl hp, rfl⟩
    · exact ⟨c, hc, Or.inr hq, rfl⟩
  · rintro ⟨c, hc, hnot, rfl⟩
    cases hp : p c.qualifiedName with
    | false => exact Or.inl ⟨c, hc, hp, rfl⟩
    | true =>
      have hq : q c.qualifiedName = false := hnot.resolve_left (by simp [hp])
      exact Or.inr ⟨c.without (droppedIds p components), ⟨c, hc, hp, rfl⟩, hq, rfl⟩

theorem filterComponents_filterComponents (p q : String → Bool) (components : List Component) :
    filterComponents q (filterComponents p components) =
      filterComponents (fun name => p name && q name) components := by
  -- A filter looks at names, and pruning leaves them as they are.
  have hkept : (filterComponents p components).filter (fun c => q c.qualifiedName) =
      (components.filter fun c => p c.qualifiedName && q c.qualifiedName).map
        (Component.without (droppedIds p components)) := by
    rw [filterComponents, List.filter_map, List.filter_filter]
    simp only [Function.comp_def, Component.without, Bool.and_comm, droppedIds]
  have hpruned : ∀ c : Component,
      (c.without (droppedIds p components)).without
          (droppedIds q (filterComponents p components)) =
        c.without (droppedIds (fun name => p name && q name) components) := by
    intro c
    rw [c.without_without]
    exact Component.without_congr_mem (fun _ => mem_droppedIds_append) c
  calc filterComponents q (filterComponents p components)
      = ((filterComponents p components).filter fun c => q c.qualifiedName).map
          (Component.without (droppedIds q (filterComponents p components))) := rfl
    _ = (components.filter fun c => p c.qualifiedName && q c.qualifiedName).map
          (Component.without (droppedIds (fun name => p name && q name) components)) := by
        rw [hkept, List.map_map]
        exact List.map_congr_left fun c _ => hpruned c
    _ = filterComponents (fun name => p name && q name) components := rfl

namespace CodeGraph

theorem filter_filter (graph : CodeGraph) (p q : String → Bool) :
    (graph.filter p).filter q = graph.filter fun name => p name && q name := by
  simp only [filter, filterComponents_filterComponents]

theorem filter_comm (graph : CodeGraph) (p q : String → Bool) :
    (graph.filter p).filter q = (graph.filter q).filter p := by
  simp only [filter_filter, Bool.and_comm]

theorem filter_self (graph : CodeGraph) (keep : String → Bool) :
    (graph.filter keep).filter keep = graph.filter keep := by
  simp only [filter_filter, Bool.and_self]

/-! ### The laws -/

/-- The components that are kept are those whose names satisfy the predicate, each without what leads
to a dropped one. -/
theorem forall₂_prunedBy_filter (graph : CodeGraph) (keep : String → Bool) :
    List.Forall₂ (Component.PrunedBy (graph.Drops keep))
      (graph.components.filter fun c => keep c.qualifiedName) (graph.filter keep).components := by
  refine List.forall₂_map_right_iff.mpr (List.forall₂_same.mpr fun c _ => ?_)
  exact c.prunedBy_without fun _ => mem_droppedIds

theorem filterCounted_eq (graph : CodeGraph) (keep : String → Bool) :
    graph.filterCounted keep =
      (graph.filter keep, graph.components.countP fun c => !keep c.qualifiedName) := by
  have hlength : (graph.filter keep).components.length =
      graph.components.countP fun c => keep c.qualifiedName := by
    rw [List.countP_eq_length_filter]
    exact List.length_map _
  have hsplit := graph.components.length_eq_countP_add_countP fun c => keep c.qualifiedName
  simp only [Bool.not_eq_true, Bool.decide_eq_false] at hsplit
  rw [filterCounted, hlength]
  congr 1
  omega

/-- A filter keeps the components whose names satisfy the predicate, in order, and counts the others;
what is kept loses the links and the parents to dropped components and nothing else, and the files
and the external symbols stay. Two filters commute and are one filter by both predicates, and the
same filter does nothing more the second time. -/
theorem filter_laws (graph : CodeGraph) (p q : String → Bool) :
    List.Forall₂ (Component.PrunedBy (graph.Drops p))
      (graph.components.filter fun c => p c.qualifiedName) (graph.filter p).components ∧
    graph.filterCounted p =
      (graph.filter p, graph.components.countP fun c => !p c.qualifiedName) ∧
    (graph.filter p).files = graph.files ∧
    (graph.filter p).externalSymbols = graph.externalSymbols ∧
    (graph.filter p).filter q = (graph.filter q).filter p ∧
    (graph.filter p).filter q = (graph.filter fun name => p name && q name) ∧
    (graph.filter p).filter p = graph.filter p := by
  refine ⟨graph.forall₂_prunedBy_filter p, graph.filterCounted_eq p, rfl, rfl, ?_, ?_, ?_⟩
  · exact graph.filter_comm p q
  · exact graph.filter_filter p q
  · exact graph.filter_self p

end CodeGraph

end CodeAtlas
