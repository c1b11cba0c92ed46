import CodeAtlas.Text.Sorted
import Mathlib.Data.List.Nodup

/-!
# Sorted sets of text

A sorted set holds the texts of a list, each once. Sorting by a text changes nothing but the order.

## Main results

* `Text.mem_sortedSet`, `Text.pairwise_sortedSet`: what a sorted set holds, in which order.
* `Text.eq_of_pairwise`: no other increasing list holds the same.
* `Text.sortBy_perm`, `Text.pairwise_sortBy`: what is sorted by a text.
-/

namespace CodeAtlas.Text

theorem mem_insertSorted {s t : String} {set : List String} :
    t ∈ insertSorted s set ↔ t = s ∨ t ∈ set := by
  induction set with
  | nil => simp [insertSorted]
  | cons first rest ih =>
    rw [insertSorted]
    split_ifs with hlt heq
    · exact List.mem_cons
    · subst heq
      simp
    · rw [List.mem_cons, List.mem_cons, ih, or_left_comm]

private theorem pairwise_insertSorted (s : String) {set : List String} (h : set.Pairwise (· < ·)) :
    (insertSorted s set).Pairwise (· < ·) := by
  induction set with
  | nil => simp [insertSorted]
  | cons first rest ih =>
    obtain ⟨hlater, hrest⟩ := List.pairwise_cons.mp h
    rw [insertSorted]
    split_ifs with hlt heq
    · refine List.pairwise_cons.mpr ⟨fun t ht => ?_, h⟩
      rcases List.mem_cons.mp ht with rfl | ht
      · exact hlt
      · exact String.lt_trans hlt (hlater t ht)
    · exact h
    · have hfirst : first < s := by
        by_contra hge
        exact heq (String.le_antisymm hge hlt)
      refine List.pairwise_cons.mpr ⟨fun t ht => ?_, ih hrest⟩
      rcases mem_insertSorted.mp ht with rfl | ht
      · exact hfirst
      · exact hlater t ht

/-- A sorted set holds the texts of the list. -/
theorem mem_sortedSet {ss : List String} {t : String} : t ∈ sortedSet ss ↔ t ∈ ss := by
  have hfoldl : ∀ set : List String,
      t ∈ ss.foldl (fun set s => insertSorted s set) set ↔ t ∈ set ∨ t ∈ ss := by
    induction ss with
    | nil => simp
    | cons s ss ih =>
      intro set
      rw [List.foldl_cons, ih, mem_insertSorted, List.mem_cons, or_assoc, or_left_comm]
  rw [sortedSet, hfoldl]
  simp

theorem pairwise_sortedSet (ss : List String) : (sortedSet ss).Pairwise (· < ·) :=
  List.foldlRecOn (motive := fun set : List String => set.Pairwise (· < ·)) ss _ .nil
    fun _ hset s _ => pairwise_insertSorted s hset

theorem nodup_of_pairwise {ss : List String} (h : ss.Pairwise (· < ·)) : ss.Nodup := by
  refine h.imp ?_
  rintro a b hlt rfl
  exact String.lt_irrefl a hlt

theorem nodup_sortedSet (ss : List String) : (sortedSet ss).Nodup :=
  nodup_of_pairwise (pairwise_sortedSet ss)

/-- An increasing list is determined by what it holds. -/
theorem eq_of_pairwise {ss ts : List String} (hs : ss.Pairwise (· < ·)) (ht : ts.Pairwise (· < ·))
    (h : ∀ t, t ∈ ss ↔ t ∈ ts) : ss = ts := by
  refine List.Perm.eq_of_pairwise (fun a b _ _ hab hba => ?_) hs ht
    ((List.perm_ext_iff_of_nodup (nodup_of_pairwise hs) (nodup_of_pairwise ht)).mpr h)
  exact absurd (String.lt_trans hab hba) (String.lt_irrefl a)

variable {α : Type} (key : α → String)

theorem sortBy_perm (xs : List α) : (sortBy key xs).Perm xs :=
  List.mergeSort_perm xs _

theorem pairwise_sortBy (xs : List α) : (sortBy key xs).Pairwise fun a b => key a ≤ key b := by
  refine (List.pairwise_mergeSort (fun a b c hab hbc => ?_) (fun a b => ?_) xs).imp
    of_decide_eq_true
  · exact decide_eq_true (String.le_trans (of_decide_eq_true hab) (of_decide_eq_true hbc))
  · simpa using String.le_total (key a) (key b)

end CodeAtlas.Text
