import CodeAtlas.SyntaxTree

/-!
# Deciding well-formedness

Whether a syntax tree is well formed over a text can be computed, by one pass over the tree that
compares offsets and cuts the text at them.

## Main results

* `Node.wellFormed_iff`: the computed answer is right, so `WellFormed` is decidable.
* `Node.wellFormedRow_le`: nodes one after the other between two offsets need their order.
-/

namespace CodeAtlas.Node

variable {source : String}

instance (offset : Nat) : Decidable (IsBoundary source offset) :=
  inferInstanceAs (Decidable (_ = true))

mutual

/-- The tree is well formed, as computed. -/
def isWellFormed (source : String) : Node → Bool
  | mk _ range _ _ children =>
    decide (range.start ≤ range.stop) && decide (IsBoundary source range.start)
      && decide (IsBoundary source range.stop)
      && isWellFormedRow source range.start range.stop children

/-- The nodes follow each other between two offsets and are well formed, as computed. -/
def isWellFormedRow (source : String) (lower upper : Nat) : List Node → Bool
  | [] => decide (lower ≤ upper)
  | node :: rest =>
    decide (lower ≤ node.range.start) && isWellFormed source node
      && isWellFormedRow source node.range.stop upper rest

end

mutual

theorem wellFormed_iff : (node : Node) → (WellFormed source node ↔ isWellFormed source node = true)
  | mk kind range isNamed field children => by
    have hchildren := wellFormedRow_iff range.start range.stop children
    simp only [isWellFormed, Bool.and_eq_true, decide_eq_true_eq, ← hchildren]
    constructor
    · intro h
      cases h with
      | mk ordered start stop inside => exact ⟨⟨⟨ordered, start⟩, stop⟩, inside⟩
    · rintro ⟨⟨⟨ordered, start⟩, stop⟩, inside⟩
      exact .mk ordered start stop inside

theorem wellFormedRow_iff (lower upper : Nat) : (nodes : List Node) →
    (WellFormedRow source lower upper nodes ↔ isWellFormedRow source lower upper nodes = true)
  | [] => by
    simp only [isWellFormedRow, decide_eq_true_eq]
    constructor
    · intro h
      cases h with
      | nil ordered => exact ordered
    · exact .nil
  | node :: rest => by
    have hnode := wellFormed_iff node
    have hrest := wellFormedRow_iff node.range.stop upper rest
    simp only [isWellFormedRow, Bool.and_eq_true, decide_eq_true_eq, ← hnode, ← hrest]
    constructor
    · intro h
      cases h with
      | cons start node_wf rest_wf => exact ⟨⟨start, node_wf⟩, rest_wf⟩
    · rintro ⟨⟨start, node_wf⟩, rest_wf⟩
      exact .cons start node_wf rest_wf

end

instance (root : Node) : Decidable (WellFormed source root) :=
  decidable_of_iff (isWellFormed source root = true) (wellFormed_iff root).symm

theorem WellFormed.range_le {node : Node} (h : WellFormed source node) :
    node.range.start ≤ node.range.stop := by
  cases h with
  | mk ordered => exact ordered

/-- Nodes one after the other between two offsets need their order. -/
theorem wellFormedRow_le {lower upper : Nat} {nodes : List Node}
    (h : WellFormedRow source lower upper nodes) : lower ≤ upper := by
  induction nodes generalizing lower with
  | nil =>
    cases h with
    | nil ordered => exact ordered
  | cons node rest ih =>
    cases h with
    | cons start node_wf rest_wf =>
      exact Nat.le_trans start (Nat.le_trans node_wf.range_le (ih rest_wf))

end CodeAtlas.Node
