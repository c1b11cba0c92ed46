import CodeAtlas.ChangeSet
import CodeAtlas.Proofs.Text.Sorted

/-!
# Combined change sets

A change set says for every path which statuses it has; a path may have several, or none. Where two
change sets are combined, the second decides about every path it mentions, with all its statuses, and
the first about the others. The lists may have been in any order and may have had repetitions; those
of the combination are strictly increasing, so that it is determined by the statuses of the paths.
From this follow the laws: each of them is a statement about one path at a time.

## Main definitions

* `ChangeSet.pathsOf`: the paths with a status.
* `ChangeSet.mentions`: the path has a status.
* `ChangeSet.Increasing`: the lists are strictly increasing.

## Main results

* `ChangeSet.mem_pathsOf_union`: the statuses of a path in a combination.
* `ChangeSet.eq_of_increasing`: what determines a change set.
* `ChangeSet.union_laws`: the laws of combinations.
-/

namespace CodeAtlas.ChangeSet

variable {set other : ChangeSet} {path : String} {status : ChangeStatus}

/-! ### The statuses of a path -/

/-- The paths with a status. -/
def pathsOf (set : ChangeSet) : ChangeStatus → List String
  | .modified => set.modified
  | .added => set.added
  | .deleted => set.deleted

/-- The path is modified, added or deleted. -/
def mentions (changes : ChangeSet) (path : String) : Bool :=
  changes.modified.contains path || changes.added.contains path || changes.deleted.contains path

theorem ext_pathsOf (h : ∀ status, set.pathsOf status = other.pathsOf status) : set = other := by
  cases set
  cases other
  rw [mk.injEq]
  exact ⟨h .modified, h .added, h .deleted⟩

theorem mentions_iff : set.mentions path = true ↔ ∃ status, path ∈ set.pathsOf status := by
  simp only [mentions, Bool.or_eq_true, List.contains_iff_mem]
  constructor
  · rintro ((h | h) | h)
    · exact ⟨.modified, h⟩
    · exact ⟨.added, h⟩
    · exact ⟨.deleted, h⟩
  · rintro ⟨status, h⟩
    cases status with
    | modified => exact Or.inl (Or.inl h)
    | added => exact Or.inl (Or.inr h)
    | deleted => exact Or.inr h

theorem mem_changes : ⟨path, status⟩ ∈ set.changes ↔ path ∈ set.pathsOf status := by
  cases status <;> simp [changes, pathsOf]

theorem mem_map_path_changes : path ∈ set.changes.map (·.path) ↔ set.mentions path = true := by
  simp only [mentions_iff, List.mem_map, ← mem_changes]
  constructor
  · rintro ⟨⟨_, status⟩, hmem, rfl⟩
    exact ⟨status, hmem⟩
  · rintro ⟨status, hmem⟩
    exact ⟨⟨path, status⟩, hmem, rfl⟩

theorem mem_pathsWith {changes : List FileChange} :
    path ∈ pathsWith status changes ↔ ⟨path, status⟩ ∈ changes := by
  simp only [pathsWith, List.mem_map, List.mem_filter, beq_iff_eq]
  constructor
  · rintro ⟨⟨p, s⟩, ⟨hmem, rfl⟩, rfl⟩
    exact hmem
  · exact fun hmem => ⟨⟨path, status⟩, ⟨hmem, rfl⟩, rfl⟩

theorem pathsOf_ofChanges (changes : List FileChange) (status : ChangeStatus) :
    (ofChanges changes).pathsOf status = Text.sortedSet (pathsWith status changes) := by
  cases status <;> rfl

theorem mem_pathsOf_ofChanges {changes : List FileChange} :
    path ∈ (ofChanges changes).pathsOf status ↔ ⟨path, status⟩ ∈ changes := by
  rw [pathsOf_ofChanges, Text.mem_sortedSet, mem_pathsWith]

theorem pathsOf_retain (set : ChangeSet) (keep : String → Bool) (status : ChangeStatus) :
    (set.retain keep).pathsOf status = (set.pathsOf status).filter keep := by
  cases status <;> rfl

/-- The statuses of a path are those that the second set gives it, and those of the first if the
second does not mention it. -/
theorem mem_pathsOf_union (set other : ChangeSet) (path : String) (status : ChangeStatus) :
    path ∈ (set.union other).pathsOf status ↔
      path ∈ other.pathsOf status ∨ path ∈ set.pathsOf status ∧ other.mentions path = false := by
  rw [union, mem_pathsOf_ofChanges, List.mem_append, List.mem_filter, mem_changes, mem_changes,
    or_comm, Bool.not_eq_true', ← Bool.not_eq_true, ← Bool.not_eq_true, List.contains_iff_mem,
    mem_map_path_changes]

theorem mentions_union :
    (set.union other).mentions path = (set.mentions path || other.mentions path) := by
  rw [Bool.eq_iff_iff, Bool.or_eq_true, mentions_iff]
  simp only [mem_pathsOf_union]
  constructor
  · rintro ⟨status, hother | ⟨hset, -⟩⟩
    · exact Or.inr (mentions_iff.mpr ⟨status, hother⟩)
    · exact Or.inl (mentions_iff.mpr ⟨status, hset⟩)
  · intro h
    cases hother : other.mentions path with
    | true =>
      obtain ⟨status, hmem⟩ := mentions_iff.mp hother
      exact ⟨status, Or.inl hmem⟩
    | false =>
      obtain ⟨status, hmem⟩ := mentions_iff.mp (h.resolve_right (by simp [hother]))
      exact ⟨status, Or.inr ⟨hmem, rfl⟩⟩

theorem mentions_retain (set : ChangeSet) (keep : String → Bool) (path : String) :
    (set.retain keep).mentions path = (set.mentions path && keep path) := by
  rw [Bool.eq_iff_iff, Bool.and_eq_true, mentions_iff, mentions_iff]
  simp only [pathsOf_retain, List.mem_filter, exists_and_right]

/-! ### Increasing lists -/

/-- The paths of each status are strictly increasing. -/
def Increasing (set : ChangeSet) : Prop :=
  ∀ status, (set.pathsOf status).Pairwise (· < ·)

theorem increasing_ofChanges (changes : List FileChange) : (ofChanges changes).Increasing := by
  intro status
  rw [pathsOf_ofChanges]
  exact Text.pairwise_sortedSet _

theorem increasing_union (set other : ChangeSet) : (set.union other).Increasing :=
  increasing_ofChanges _

theorem Increasing.retain (h : set.Increasing) (keep : String → Bool) :
    (set.retain keep).Increasing := by
  intro status
  rw [pathsOf_retain]
  exact (h status).filter keep

/-- Increasing change sets are equal if every path has the same statuses in both. -/
theorem eq_of_increasing (hset : set.Increasing) (hother : other.Increasing)
    (h : ∀ path status, path ∈ set.pathsOf status ↔ path ∈ other.pathsOf status) : set = other :=
  ext_pathsOf fun status =>
    Text.eq_of_pairwise (hset status) (hother status) fun path => h path status

theorem ofChanges_changes_eq_iff : ofChanges set.changes = set ↔ set.Increasing := by
  constructor
  · intro h
    rw [← h]
    exact increasing_ofChanges _
  · intro h
    refine eq_of_increasing (increasing_ofChanges _) h fun path status => ?_
    rw [mem_pathsOf_ofChanges, mem_changes]

/-! ### The laws -/

theorem union_assoc (a b c : ChangeSet) : (a.union b).union c = a.union (b.union c) := by
  refine eq_of_increasing (increasing_union _ _) (increasing_union _ _) fun path status => ?_
  simp only [mem_pathsOf_union, mentions_union, Bool.or_eq_false_iff]
  tauto

/-- A combination in which every path has the statuses of one set is that set, sorted. -/
theorem union_eq_ofChanges {result : ChangeSet}
    (h : ∀ path status, path ∈ (set.union other).pathsOf status ↔ path ∈ result.pathsOf status) :
    set.union other = ofChanges result.changes := by
  refine eq_of_increasing (increasing_union _ _) (increasing_ofChanges _) fun path status => ?_
  rw [h, mem_pathsOf_ofChanges, mem_changes]

theorem union_empty (set : ChangeSet) : set.union empty = ofChanges set.changes := by
  refine union_eq_ofChanges fun path status => ?_
  have hnone : path ∉ empty.pathsOf status := by cases status <;> exact List.not_mem_nil
  have hmentions : empty.mentions path = false := rfl
  simp [mem_pathsOf_union, hnone, hmentions]

theorem empty_union (set : ChangeSet) : empty.union set = ofChanges set.changes := by
  refine union_eq_ofChanges fun path status => ?_
  have hnone : path ∉ empty.pathsOf status := by cases status <;> exact List.not_mem_nil
  simp [mem_pathsOf_union, hnone]

theorem union_self (set : ChangeSet) : set.union set = ofChanges set.changes := by
  refine union_eq_ofChanges fun path status => ?_
  rw [mem_pathsOf_union]
  exact or_iff_left_of_imp And.left

theorem retain_union (set other : ChangeSet) (keep : String → Bool) :
    (set.union other).retain keep = (set.retain keep).union (other.retain keep) := by
  refine eq_of_increasing ((increasing_union _ _).retain keep) (increasing_union _ _)
    fun path status => ?_
  simp only [pathsOf_retain, List.mem_filter, mem_pathsOf_union, mentions_retain]
  cases keep path <;> simp

/-- A combination gives every path that the second set mentions the statuses it has there, and every
other path those of the first, and its lists are strictly increasing. Combining is associative.
Combined with nothing, or with itself, a set is only sorted, which changes nothing if it is sorted
already. Keeping some paths of a combination is combining what is kept. -/
theorem union_laws (a b c : ChangeSet) (keep : String → Bool) :
    (∀ path status, path ∈ (a.union b).pathsOf status ↔
      if b.mentions path then path ∈ b.pathsOf status else path ∈ a.pathsOf status) ∧
    (∀ path, b.mentions path = true ↔ ∃ status, path ∈ b.pathsOf status) ∧
    (a.union b).Increasing ∧
    (a.union b).union c = a.union (b.union c) ∧
    a.union empty = ofChanges a.changes ∧
    empty.union a = ofChanges a.changes ∧
    a.union a = ofChanges a.changes ∧
    (ofChanges a.changes = a ↔ a.Increasing) ∧
    (a.union b).retain keep = (a.retain keep).union (b.retain keep) := by
  refine ⟨fun path status => ?_, fun _ => mentions_iff, increasing_union a b, union_assoc a b c,
    union_empty a, empty_union a, union_self a, ofChanges_changes_eq_iff, retain_union a b keep⟩
  rw [mem_pathsOf_union]
  split_ifs with hmentions
  · simp [hmentions]
  · -- What is not mentioned has no status.
    have hnone : path ∉ b.pathsOf status := fun h => hmentions (mentions_iff.mpr ⟨status, h⟩)
    simp [hnone, hmentions]

end CodeAtlas.ChangeSet
