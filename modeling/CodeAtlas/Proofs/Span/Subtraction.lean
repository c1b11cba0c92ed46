import CodeAtlas.Span
import Mathlib.Data.List.Basic

/-!
# Subtraction is set difference

The segments that `Span.subtract` leaves of a span hold exactly the positions of the span that lie
in no hole. They are not empty, they increase, and two of them never touch, because a hole with a
position lies between. No other spans of this kind hold the same positions, so the segments are the
one way to write the difference. Holes have to be given by increasing start; they may overlap, be
empty, or reach out of the span. Sorting brings any holes into that order.

## Main definitions

* `Span.Separated`: spans with positions, one after the other, of which no two touch.

## Main results

* `Span.contains_subtract_iff`: the positions of the segments.
* `Span.pairwise_subtract`, `Span.mem_subtract_bounds`: their order and their bounds.
* `Span.subtract_ends`: they start and stop where the span or a hole does.
* `Span.Separated.eq_of_contains_iff`: separated spans are determined by their positions.
* `Span.subtract_exact`: the segments are the separated spans of the difference.
-/

namespace CodeAtlas.Span

variable {s : Span} {holes : List Span}

/-! ### Sorted spans -/

private theorem precedes_trans (a b c : Span) (hab : a.precedes b) (hbc : b.precedes c) :
    a.precedes c := by
  simp only [precedes, Bool.or_eq_true, Bool.and_eq_true, decide_eq_true_eq, beq_iff_eq] at *
  omega

private theorem precedes_total (a b : Span) : a.precedes b || b.precedes a := by
  simp only [precedes, Bool.or_eq_true, Bool.and_eq_true, decide_eq_true_eq, beq_iff_eq]
  omega

/-- Sorting only changes the order. -/
theorem sort_perm (spans : List Span) : (sort spans).Perm spans :=
  List.mergeSort_perm spans precedes

@[simp] theorem mem_sort {spans : List Span} {t : Span} : t ∈ sort spans ↔ t ∈ spans :=
  (sort_perm spans).mem_iff

/-- Sorted spans have increasing starts. -/
theorem pairwise_sort (spans : List Span) : (sort spans).Pairwise fun a b => a.start ≤ b.start := by
  refine (List.pairwise_mergeSort precedes_trans precedes_total spans).imp ?_
  intro a b h
  simp only [precedes, Bool.or_eq_true, Bool.and_eq_true, decide_eq_true_eq, beq_iff_eq] at h
  omega

/-! ### Segments from a cursor -/

/-- Segments start at the cursor or later, have a position, and end with the span. -/
theorem mem_subtractFrom_bounds {cursor : Nat} {t : Span} (ht : t ∈ subtractFrom s cursor holes) :
    cursor ≤ t.start ∧ t.start < t.stop ∧ t.stop ≤ s.stop := by
  fun_induction subtractFrom s cursor holes with
  | case1 cursor hc =>
    obtain rfl := List.mem_singleton.mp ht
    exact ⟨Nat.le_refl _, hc, Nat.le_refl _⟩
  | case2 => simp at ht
  | case3 cursor hole holes start stop hempty ih => exact ih ht
  | case4 cursor hole holes start stop hempty hc ih =>
    rcases List.mem_cons.mp ht with rfl | ht
    · exact ⟨Nat.le_refl _, hc, by simp only; omega⟩
    · have := ih ht
      omega
  | case5 cursor hole holes start stop hempty hc ih =>
    have := ih ht
    omega

/-- The positions of the segments from a cursor on. -/
theorem contains_subtractFrom_iff {cursor : Nat} (hcursor : s.start ≤ cursor)
    (hsorted : holes.Pairwise fun a b => a.start ≤ b.start) (p : Nat) :
    (∃ t ∈ subtractFrom s cursor holes, t.Contains p) ↔
      (cursor ≤ p ∧ p < s.stop) ∧ ∀ hole ∈ holes, ¬ hole.Contains p := by
  fun_induction subtractFrom s cursor holes with
  | case1 cursor hc => simp [Contains]
  | case2 cursor hc =>
    simp only [List.not_mem_nil, false_and, exists_false, false_implies, implies_true, and_true,
      false_iff]
    omega
  | case3 cursor hole holes start stop hempty ih =>
    rw [ih hcursor hsorted.of_cons, List.forall_mem_cons]
    refine and_congr_right fun hp => ⟨fun h => ⟨?_, h⟩, fun h => h.2⟩
    simp only [Contains]
    omega
  | case4 cursor hole holes start stop hempty hc ih =>
    have hlater := (List.pairwise_cons.mp hsorted).1
    have ih := ih (by omega) hsorted.of_cons
    rw [List.exists_mem_cons_iff, ih, List.forall_mem_cons]
    simp only [Contains]
    constructor
    · rintro (hp | ⟨hp, hrest⟩)
      · refine ⟨by omega, by omega, fun other hother => ?_⟩
        have := hlater other hother
        omega
      · exact ⟨by omega, by omega, hrest⟩
    · rintro ⟨hp, hhole, hrest⟩
      by_cases hbefore : p < start
      · exact Or.inl ⟨hp.1, hbefore⟩
      · exact Or.inr ⟨by omega, hrest⟩
  | case5 cursor hole holes start stop hempty hc ih =>
    rw [ih (by omega) hsorted.of_cons, List.forall_mem_cons]
    simp only [Contains]
    constructor
    · rintro ⟨hp, hrest⟩
      exact ⟨by omega, by omega, hrest⟩
    · rintro ⟨hp, hhole, hrest⟩
      exact ⟨by omega, hrest⟩

/-- Between two segments there is a position of a hole. -/
theorem pairwise_subtractFrom (s : Span) (cursor : Nat) (holes : List Span) :
    (subtractFrom s cursor holes).Pairwise fun a b => a.stop < b.start := by
  fun_induction subtractFrom s cursor holes with
  | case1 => exact List.pairwise_singleton _ _
  | case2 => exact List.Pairwise.nil
  | case3 cursor hole holes start stop hempty ih => exact ih
  | case4 cursor hole holes start stop hempty hc ih =>
    refine List.pairwise_cons.mpr ⟨fun t ht => ?_, ih⟩
    have := mem_subtractFrom_bounds ht
    simp only
    omega
  | case5 cursor hole holes start stop hempty hc ih => exact ih

/-- Segments start and stop where the span or a hole does. -/
theorem subtractFrom_ends {P : Nat → Prop} {cursor : Nat} (hcursor : P cursor)
    (hstart : P s.start) (hstop : P s.stop)
    (hholes : ∀ hole ∈ holes, P hole.start ∧ P hole.stop)
    {t : Span} (ht : t ∈ subtractFrom s cursor holes) : P t.start ∧ P t.stop := by
  have hmax {a b : Nat} (ha : P a) (hb : P b) : P (max a b) := by
    rcases Nat.le_total a b with h | h
    · rwa [Nat.max_eq_right h]
    · rwa [Nat.max_eq_left h]
  have hmin {a b : Nat} (ha : P a) (hb : P b) : P (min a b) := by
    rcases Nat.le_total a b with h | h
    · rwa [Nat.min_eq_left h]
    · rwa [Nat.min_eq_right h]
  fun_induction subtractFrom s cursor holes with
  | case1 cursor hc =>
    obtain rfl := List.mem_singleton.mp ht
    exact ⟨hcursor, hstop⟩
  | case2 => simp at ht
  | case3 cursor hole holes start stop hempty ih =>
    exact ih hcursor (List.forall_mem_cons.mp hholes).2 ht
  | case4 cursor hole holes start stop hempty hc ih =>
    obtain ⟨hhole, hrest⟩ := List.forall_mem_cons.mp hholes
    rcases List.mem_cons.mp ht with rfl | ht
    · exact ⟨hcursor, hmax hhole.1 hstart⟩
    · exact ih (hmax hcursor (hmin hhole.2 hstop)) hrest ht
  | case5 cursor hole holes start stop hempty hc ih =>
    obtain ⟨hhole, hrest⟩ := List.forall_mem_cons.mp hholes
    exact ih (hmax hcursor (hmin hhole.2 hstop)) hrest ht

/-! ### Segments of a span -/

/-- A position lies in a segment exactly when it lies in the span and in no hole. -/
theorem contains_subtract_iff (hsorted : holes.Pairwise fun a b => a.start ≤ b.start) (p : Nat) :
    (∃ t ∈ s.subtract holes, t.Contains p) ↔ s.Contains p ∧ ∀ hole ∈ holes, ¬ hole.Contains p :=
  contains_subtractFrom_iff (Nat.le_refl _) hsorted p

/-- Segments have a position and lie in the span. -/
theorem mem_subtract_bounds {t : Span} (ht : t ∈ s.subtract holes) :
    s.start ≤ t.start ∧ t.start < t.stop ∧ t.stop ≤ s.stop :=
  mem_subtractFrom_bounds ht

/-- Segments increase and do not touch. -/
theorem pairwise_subtract (s : Span) (holes : List Span) :
    (s.subtract holes).Pairwise fun a b => a.stop < b.start :=
  pairwise_subtractFrom s s.start holes

/-- Segments start and stop where the span or a hole does. -/
theorem subtract_ends {P : Nat → Prop} (hstart : P s.start) (hstop : P s.stop)
    (hholes : ∀ hole ∈ holes, P hole.start ∧ P hole.stop)
    {t : Span} (ht : t ∈ s.subtract holes) : P t.start ∧ P t.stop :=
  subtractFrom_ends hstart hstart hstop hholes ht

/-! ### The difference as separated spans -/

/-- Each of the spans has a position, and between two of them there is a position of none. -/
structure Separated (spans : List Span) : Prop where
  nonempty : ∀ t ∈ spans, t.start < t.stop
  apart : spans.Pairwise fun a b => a.stop < b.start

namespace Separated

variable {t u : Span} {ts us spans : List Span}

theorem of_cons (h : Separated (t :: ts)) : Separated ts where
  nonempty := (List.forall_mem_cons.mp h.nonempty).2
  apart := h.apart.of_cons

/-- The first of separated spans starts before all their positions. -/
theorem start_le (h : Separated (t :: ts)) {p : Nat} (hp : ∃ v ∈ t :: ts, v.Contains p) :
    t.start ≤ p := by
  obtain ⟨v, hv, hvp⟩ := hp
  rcases List.mem_cons.mp hv with rfl | hv
  · exact hvp.1
  · have hfirst := h.nonempty t List.mem_cons_self
    have hafter := (List.pairwise_cons.mp h.apart).1 v hv
    have hstart := hvp.1
    omega

/-- The positions of the spans after the first are those beyond its end. -/
theorem contains_tail_iff (h : Separated (t :: ts)) (p : Nat) :
    (∃ v ∈ ts, v.Contains p) ↔ t.stop < p ∧ ∃ v ∈ t :: ts, v.Contains p := by
  constructor
  · rintro ⟨v, hv, hvp⟩
    have hafter := (List.pairwise_cons.mp h.apart).1 v hv
    exact ⟨Nat.lt_of_lt_of_le hafter hvp.1, v, List.mem_cons_of_mem t hv, hvp⟩
  · rintro ⟨hp, v, hv, hvp⟩
    rcases List.mem_cons.mp hv with rfl | hv
    · exact absurd hvp.2 (by omega)
    · exact ⟨v, hv, hvp⟩

/-- Where the first of separated spans stops, there is no position. -/
theorem not_contains_stop (h : Separated (t :: ts)) : ¬ ∃ v ∈ t :: ts, v.Contains t.stop := by
  rintro ⟨v, hv, hvp⟩
  rcases List.mem_cons.mp hv with rfl | hv
  · exact Nat.lt_irrefl _ hvp.2
  · have hafter := (List.pairwise_cons.mp h.apart).1 v hv
    exact absurd hvp.1 (by omega)

/-- Separated spans with the same positions begin with the same span. -/
theorem head_eq (ht : Separated (t :: ts)) (hu : Separated (u :: us))
    (h : ∀ p, (∃ v ∈ t :: ts, v.Contains p) ↔ ∃ v ∈ u :: us, v.Contains p) : t = u := by
  have htne := ht.nonempty t List.mem_cons_self
  have hune := hu.nonempty u List.mem_cons_self
  have hfirst (p : Nat) (hp : t.Contains p) : ∃ v ∈ t :: ts, v.Contains p :=
    ⟨t, List.mem_cons_self, hp⟩
  have hsecond (p : Nat) (hp : u.Contains p) : ∃ v ∈ u :: us, v.Contains p :=
    ⟨u, List.mem_cons_self, hp⟩
  have hstart : t.start = u.start :=
    Nat.le_antisymm (ht.start_le ((h _).mpr (hsecond u.start ⟨Nat.le_refl _, hune⟩)))
      (hu.start_le ((h _).mp (hfirst t.start ⟨Nat.le_refl _, htne⟩)))
  -- The end of the shorter one would be a position of the longer one, and is one of neither list.
  have hstop : t.stop = u.stop := by
    rcases Nat.lt_trichotomy t.stop u.stop with hlt | heq | hgt
    · exact absurd ((h _).mpr (hsecond t.stop ⟨by omega, hlt⟩)) ht.not_contains_stop
    · exact heq
    · exact absurd ((h _).mp (hfirst u.stop ⟨by omega, hgt⟩)) hu.not_contains_stop
  cases t
  cases u
  exact congrArg₂ Span.mk hstart hstop

/-- Separated spans are determined by their positions. -/
theorem eq_of_contains_iff (ht : Separated ts) (hu : Separated us)
    (h : ∀ p, (∃ v ∈ ts, v.Contains p) ↔ ∃ v ∈ us, v.Contains p) : ts = us := by
  induction ts generalizing us with
  | nil =>
    cases us with
    | nil => rfl
    | cons u us =>
      have hune := hu.nonempty u List.mem_cons_self
      obtain ⟨v, hv, -⟩ := (h u.start).mpr ⟨u, List.mem_cons_self, Nat.le_refl _, hune⟩
      exact absurd hv List.not_mem_nil
  | cons t ts ih =>
    cases us with
    | nil =>
      have htne := ht.nonempty t List.mem_cons_self
      obtain ⟨v, hv, -⟩ := (h t.start).mp ⟨t, List.mem_cons_self, Nat.le_refl _, htne⟩
      exact absurd hv List.not_mem_nil
    | cons u us =>
      obtain rfl := ht.head_eq hu h
      rw [ih ht.of_cons hu.of_cons fun p => ?_]
      rw [ht.contains_tail_iff, hu.contains_tail_iff, h]

end Separated

theorem separated_subtract (s : Span) (holes : List Span) : Separated (s.subtract holes) where
  nonempty := fun _ ht => (mem_subtract_bounds ht).2.1
  apart := pairwise_subtract s holes

/-- The segments that the holes leave of a span are separated, hold the positions of the span that
lie in no hole, and are the only separated spans that do. -/
theorem subtract_exact (s : Span) {holes : List Span}
    (hsorted : holes.Pairwise fun a b => a.start ≤ b.start) :
    Separated (s.subtract holes) ∧
    (∀ p, (∃ t ∈ s.subtract holes, t.Contains p) ↔
      s.Contains p ∧ ∀ hole ∈ holes, ¬ hole.Contains p) ∧
    ∀ segments, Separated segments →
      (∀ p, (∃ t ∈ segments, t.Contains p) ↔
        s.Contains p ∧ ∀ hole ∈ holes, ¬ hole.Contains p) →
      segments = s.subtract holes := by
  refine ⟨separated_subtract s holes, contains_subtract_iff hsorted, fun segments hsegments h => ?_⟩
  refine hsegments.eq_of_contains_iff (separated_subtract s holes) fun p => ?_
  rw [h, contains_subtract_iff hsorted]

/-- Holes that reach out of the span, overlap, lie in each other, are empty, or stop before they
start. -/
def oddHoles : List Span :=
  [⟨0, 4⟩, ⟨3, 3⟩, ⟨5, 9⟩, ⟨6, 7⟩, ⟨8, 1⟩, ⟨8, 10⟩, ⟨18, 30⟩]

theorem subtract_exact_oddHoles :
    (oddHoles.Pairwise fun a b => a.start ≤ b.start) ∧ Separated [⟨4, 5⟩, ⟨10, 18⟩] ∧
    ∀ p, (∃ t ∈ [⟨4, 5⟩, ⟨10, 18⟩], Contains t p) ↔
      Contains ⟨2, 20⟩ p ∧ ∀ hole ∈ oddHoles, ¬ hole.Contains p := by
  have hsorted : oddHoles.Pairwise fun a b => a.start ≤ b.start := by decide
  have hsegments : subtract ⟨2, 20⟩ oddHoles = [⟨4, 5⟩, ⟨10, 18⟩] := by decide
  obtain ⟨hseparated, hpositions, -⟩ := subtract_exact ⟨2, 20⟩ hsorted
  rw [hsegments] at hseparated hpositions
  exact ⟨hsorted, hseparated, hpositions⟩

end CodeAtlas.Span
