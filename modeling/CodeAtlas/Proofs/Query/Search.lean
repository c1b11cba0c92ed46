import CodeAtlas.Query
import Mathlib.Data.List.Nodup
import Mathlib.Data.List.Perm.Subperm
import Mathlib.Logic.Relation

/-!
# Searching along uses

The search keeps the keys it has reached and, of these, a stack of those whose uses it has still to
look at. A key is put on the stack once, when it is reached, so no more keys are taken from it than
there are nodes: the search ends by itself, and when it does, everything that a reached key uses is
reached. What it has reached is then what can be reached.

## Main definitions

* `GraphView.Searched`: what holds at every step of a search.

## Main results

* `GraphView.Searched.step`: one key is taken from the stack.
* `GraphView.searched_explore`: the search ends with an empty stack.
* `GraphView.explore_add`: more steps do not change the result.
* `GraphView.Searched.mem_iff`: what has been reached in the end.
-/

namespace CodeAtlas.GraphView

variable {view : GraphView} {start key : NodeKey} {stack reached : List NodeKey}

/-! ### Keys that are new -/

theorem mem_unseen {seen keys : List NodeKey} :
    key ∈ unseen seen keys ↔ key ∈ keys ∧ key ∉ seen := by
  fun_induction unseen seen keys with
  | case1 => simp
  | case2 seen first rest hseen ih =>
    have hfirst : first ∈ seen := by simpa using hseen
    rw [ih, List.mem_cons]
    constructor
    · exact fun h => ⟨Or.inr h.1, h.2⟩
    · rintro ⟨rfl | hrest, hnot⟩
      · exact absurd hfirst hnot
      · exact ⟨hrest, hnot⟩
  | case3 seen first rest hseen ih =>
    have hfirst : first ∉ seen := by simpa using hseen
    rw [List.mem_cons, ih, List.mem_cons, List.mem_cons]
    constructor
    · rintro (rfl | ⟨hrest, hnot⟩)
      · exact ⟨Or.inl rfl, hfirst⟩
      · exact ⟨Or.inr hrest, fun hmem => hnot (Or.inr hmem)⟩
    · rintro ⟨rfl | hrest, hnot⟩
      · exact Or.inl rfl
      · by_cases hkey : key = first
        · exact Or.inl hkey
        · exact Or.inr ⟨hrest, not_or.mpr ⟨hkey, hnot⟩⟩

theorem nodup_unseen (seen keys : List NodeKey) : (unseen seen keys).Nodup := by
  fun_induction unseen seen keys with
  | case1 => exact List.nodup_nil
  | case2 seen first rest hseen ih => exact ih
  | case3 seen first rest hseen ih =>
    refine List.nodup_cons.mpr ⟨fun hmem => ?_, ih⟩
    exact (mem_unseen.mp hmem).2 List.mem_cons_self

/-! ### One step -/

/-- The target is reached along any number of uses. -/
def Reaches (view : GraphView) : NodeKey → NodeKey → Prop :=
  Relation.ReflTransGen fun source target => target ∈ view.usesOf source

/-- The keys reached so far are distinct and can be reached from the start, and what they use is
reached as well, unless they are still on the stack. -/
structure Searched (view : GraphView) (start : NodeKey) (stack reached : List NodeKey) : Prop where
  first : reached.head? = some start
  nodup : reached.Nodup
  sound : ∀ key ∈ reached, view.Reaches start key
  pending : ∀ key ∈ stack, key ∈ reached
  closed : ∀ key ∈ reached, key ∈ stack ∨ ∀ target ∈ view.usesOf key, target ∈ reached

theorem searched_start (view : GraphView) (start : NodeKey) :
    Searched view start [start] [start] where
  first := rfl
  nodup := List.nodup_singleton start
  sound := fun _ hkey => List.mem_singleton.mp hkey ▸ .refl
  pending := fun _ hkey => hkey
  closed := fun _ hkey => Or.inl hkey

/-- A key is taken from the stack, and what it uses is put there if it is new. -/
theorem Searched.step (h : Searched view start (key :: stack) reached) :
    Searched view start ((unseen reached (view.usesOf key)).reverse ++ stack)
      (reached ++ unseen reached (view.usesOf key)) where
  first := by rw [List.head?_append, h.first, Option.some_or]
  nodup := List.nodup_append.mpr ⟨h.nodup, nodup_unseen _ _, fun _ hold _ hnew heq =>
    (mem_unseen.mp hnew).2 (heq ▸ hold)⟩
  sound := by
    intro target htarget
    rcases List.mem_append.mp htarget with hold | hnew
    · exact h.sound target hold
    · exact (h.sound key (h.pending key List.mem_cons_self)).tail (mem_unseen.mp hnew).1
  pending := by
    intro target htarget
    rcases List.mem_append.mp htarget with hnew | hold
    · exact List.mem_append_right _ (List.mem_reverse.mp hnew)
    · exact List.mem_append_left _ (h.pending target (List.mem_cons_of_mem _ hold))
  closed := by
    intro source hsource
    rcases List.mem_append.mp hsource with hold | hnew
    · rcases h.closed source hold with hstack | hclosed
      · rcases List.mem_cons.mp hstack with rfl | hstack
        · -- What the key uses was reached before, or is reached now.
          refine Or.inr fun target htarget => ?_
          by_cases hmem : target ∈ reached
          · exact List.mem_append_left _ hmem
          · exact List.mem_append_right _ (mem_unseen.mpr ⟨htarget, hmem⟩)
        · exact Or.inl (List.mem_append_right _ hstack)
      · exact Or.inr fun target htarget => List.mem_append_left _ (hclosed target htarget)
    · exact Or.inl (List.mem_append_left _ (List.mem_reverse.mpr hnew))

/-! ### The whole search -/

/-- When the stack is empty, what has been reached is what can be reached. -/
theorem Searched.mem_iff (h : Searched view start [] reached) :
    key ∈ reached ↔ view.Reaches start key := by
  refine ⟨h.sound key, fun hreaches => ?_⟩
  induction hreaches with
  | refl => exact List.mem_of_mem_head? h.first
  | tail _ huses ih =>
    rcases h.closed _ ih with hstack | hclosed
    · exact absurd hstack List.not_mem_nil
    · exact hclosed _ huses

/-- All uses of the view lead to nodes, of which the start is one. -/
def Closed (view : GraphView) (start : NodeKey) : Prop :=
  start ∈ view.nodes.map GraphNode.key ∧
    ∀ source, ∀ target ∈ view.usesOf source, target ∈ view.nodes.map GraphNode.key

/-- No more keys are reached than there are nodes. -/
theorem Searched.length_le (hclosed : view.Closed start) (h : Searched view start stack reached) :
    reached.length ≤ view.nodes.length := by
  have hsubset : reached ⊆ view.nodes.map GraphNode.key := by
    intro key hkey
    rcases (h.sound key hkey).cases_tail with rfl | ⟨source, -, huses⟩
    · exact hclosed.1
    · exact hclosed.2 source key huses
  simpa using (h.nodup.subperm hsubset).length_le

/-- When no step is left and the stack was given enough of them, it is empty. -/
private theorem Searched.stack_eq_nil (hclosed : view.Closed start)
    (h : Searched view start stack reached)
    (hfuel : view.nodes.length + stack.length ≤ reached.length) : stack = [] := by
  have := h.length_le hclosed
  exact List.eq_nil_of_length_eq_zero (by omega)

/-- Of the keys that are reached, all but those on the stack have been taken from it. So there are
steps enough when there is one for each node that has not been taken yet. -/
theorem searched_explore (hclosed : view.Closed start) {fuel : Nat}
    (hfuel : view.nodes.length + stack.length ≤ fuel + reached.length)
    (h : Searched view start stack reached) :
    Searched view start [] (explore view fuel stack reached) := by
  fun_induction explore view fuel stack reached with
  | case1 stack reached =>
    obtain rfl := h.stack_eq_nil hclosed (by omega)
    exact h
  | case2 fuel reached => exact h
  | case3 reached fuel key stack found ih =>
    refine ih ?_ h.step
    simp only [List.length_append, List.length_reverse, List.length_cons] at hfuel ⊢
    omega

/-- More steps do not change what is reached. -/
theorem explore_add (hclosed : view.Closed start) {fuel : Nat}
    (hfuel : view.nodes.length + stack.length ≤ fuel + reached.length)
    (h : Searched view start stack reached) (more : Nat) :
    explore view (fuel + more) stack reached = explore view fuel stack reached := by
  induction fuel generalizing stack reached with
  | zero =>
    obtain rfl := h.stack_eq_nil hclosed (by omega)
    cases more <;> rfl
  | succ fuel ih =>
    cases stack with
    | nil => rw [Nat.add_right_comm]; rfl
    | cons key stack =>
      rw [Nat.add_right_comm, explore, explore]
      refine ih ?_ h.step
      simp only [List.length_append, List.length_reverse, List.length_cons] at hfuel ⊢
      omega

end CodeAtlas.GraphView
