import CodeAtlas.Proofs.Span.Subtraction

/-!
# Tilings

Spans tile a range of offsets when they follow each other from its beginning to its end without a
gap. Spans that are sorted by start and hold no position twice lie one after the other; if they also
hold every position of a range, and nothing outside of it, they tile the range.

## Main results

* `Span.countP_contains_of_apart`: spans without common positions hold a position once at most.
* `Span.pairwise_sort_of_apart`: sorted, they lie one after the other.
* `Span.tiles_of_cover`: spans one after the other that hold every position tile the range.
-/

namespace CodeAtlas.Span

/-- The spans follow each other from one offset to another, and each of them has a position. -/
inductive Tiles : Nat → Nat → List Span → Prop
  | nil (offset : Nat) : Tiles offset offset []
  | cons {upper : Nat} {span : Span} {rest : List Span} (nonempty : span.start < span.stop)
      (rest_tiles : Tiles span.stop upper rest) : Tiles span.start upper (span :: rest)

/-- The spans have no position in common. -/
def Apart (a b : Span) : Prop :=
  ∀ p, a.Contains p → ¬ b.Contains p

theorem Apart.symm {a b : Span} (h : Apart a b) : Apart b a :=
  fun p hb ha => h p ha hb

theorem apart_of_le {a b : Span} (h : a.stop ≤ b.start) : Apart a b := by
  intro p ha hb
  simp only [Contains] at ha hb
  omega

/-- Of spans without common positions at most one holds a position. -/
theorem countP_contains_of_apart {spans : List Span} (h : spans.Pairwise Apart) (p : Nat) :
    spans.countP (fun t => decide (t.Contains p)) = if ∃ t ∈ spans, t.Contains p then 1 else 0 := by
  induction spans with
  | nil => simp
  | cons t rest ih =>
    obtain ⟨hlater, hrest⟩ := List.pairwise_cons.mp h
    by_cases ht : t.Contains p
    · have hnone : ¬ ∃ u ∈ rest, u.Contains p := fun ⟨u, hu, hup⟩ => hlater u hu p ht hup
      rw [List.countP_cons_of_pos (by simpa using ht), ih hrest, if_neg hnone,
        if_pos ⟨t, List.mem_cons_self, ht⟩]
    · rw [List.countP_cons_of_neg (by simpa using ht), ih hrest]
      simp only [List.exists_mem_cons_iff, ht, false_or]

/-- Sorting keeps spans without common positions, and puts those that have positions one after the
other. -/
theorem pairwise_sort_of_apart {spans : List Span} (hne : ∀ t ∈ spans, t.start < t.stop)
    (h : spans.Pairwise Apart) : (sort spans).Pairwise fun a b => a.stop ≤ b.start := by
  have hapart : (sort spans).Pairwise Apart :=
    (sort_perm spans).symm.pairwise h fun hab => hab.symm
  refine ((pairwise_sort spans).and hapart).imp_of_mem ?_
  rintro a b - hb ⟨hle, hab⟩
  by_contra hlt
  exact hab b.start ⟨hle, by omega⟩ ⟨Nat.le_refl _, hne b (mem_sort.mp hb)⟩

/-- Spans one after the other between two offsets that hold every position tile the range. -/
theorem tiles_of_cover {lower upper : Nat} {spans : List Span} (hle : lower ≤ upper)
    (hpair : spans.Pairwise fun a b => a.stop ≤ b.start)
    (hbounds : ∀ t ∈ spans, lower ≤ t.start ∧ t.start < t.stop ∧ t.stop ≤ upper)
    (hcover : ∀ p, lower ≤ p → p < upper → ∃ t ∈ spans, t.Contains p) :
    Tiles lower upper spans := by
  induction spans generalizing lower with
  | nil =>
    have hend : lower = upper := by
      by_contra hne
      obtain ⟨t, ht, _⟩ := hcover lower (Nat.le_refl _) (by omega)
      exact List.not_mem_nil ht
    exact hend ▸ Tiles.nil lower
  | cons t rest ih =>
    obtain ⟨hlater, hrest⟩ := List.pairwise_cons.mp hpair
    obtain ⟨hlow, hne, hup⟩ := hbounds t List.mem_cons_self
    have hstart : t.start = lower := by
      obtain ⟨u, hu, hu'⟩ := hcover lower (Nat.le_refl _) (by omega)
      rcases List.mem_cons.mp hu with rfl | hu
      · exact Nat.le_antisymm hu'.1 hlow
      · have := hlater u hu
        have := hu'.1
        omega
    rw [← hstart]
    refine Tiles.cons hne (ih hup hrest (fun u hu => ?_) fun p hp hpu => ?_)
    · obtain ⟨_, hune, huup⟩ := hbounds u (List.mem_cons_of_mem t hu)
      exact ⟨hlater u hu, hune, huup⟩
    · obtain ⟨u, hu, hu'⟩ := hcover p (by omega) hpu
      rcases List.mem_cons.mp hu with rfl | hu
      · exact absurd hu'.2 (by omega)
      · exact ⟨u, hu, hu'⟩

end CodeAtlas.Span
