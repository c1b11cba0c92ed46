import CodeAtlas.Proofs.Coverage
import Mathlib.Order.MinMax

/-!
# Gaps and overlaps are exact

Validation sweeps once over the spans of a file's components, by increasing start, with one cursor:
the furthest stop of the spans it has passed. A span that starts after the cursor leaves a gap, and
one that starts before it lies over an earlier span as far as the cursor reaches. The spans may be
given in any order; they may be nested, equal, empty, inverted or lie beyond the text. Whatever they
are, the gaps together hold the positions that no span holds, and the overlaps together hold those
that at least two spans hold.

What the cursor stands for is part of both statements about the sweep: from a cursor on, gaps hold
no position before it, and a single span is enough for an overlap at a position before it.

## Main definitions

* `CodeGraph.furthestStop`: where the last span of a file's components ends.

## Main results

* `Validation.contains_gap_iff`, `Validation.contains_overlap_iff`: the positions that a sweep
  reports from a cursor on.
* `Validation.coverageIssues_exact`: the positions that are reported for a file.
-/

namespace CodeAtlas

/-- The span has a position. -/
theorem Span.isEmpty_eq_false_iff {span : Span} :
    span.isEmpty = false ↔ span.start < span.stop := by
  simp only [Span.isEmpty, Span.length, beq_eq_false_iff_ne]
  omega

namespace Validation

variable {name : String} {length cursor : Nat} {spans : List Span}

/-! ### The sweep -/

/-- The issue of one span, when everything before the cursor has been looked at. -/
def issueAt (name : String) (cursor : Nat) (span : Span) : List Issue :=
  if cursor < span.start then [.coverageGap name ⟨cursor, span.start⟩]
  else if span.start < cursor then [.coverageOverlap name ⟨span.start, min cursor span.stop⟩]
  else []

theorem coverageFrom_cons (name : String) (length cursor : Nat) (span : Span) (rest : List Span) :
    coverageFrom name length cursor (span :: rest) =
      issueAt name cursor span ++ coverageFrom name length (max cursor span.stop) rest :=
  rfl

/-- The gap before a span holds the positions from the cursor to its start. -/
theorem contains_gap_issueAt_iff (name : String) (cursor : Nat) (span : Span) (p : Nat) :
    (∃ gap : Span, .coverageGap name gap ∈ issueAt name cursor span ∧ gap.Contains p) ↔
      cursor ≤ p ∧ p < span.start := by
  unfold issueAt
  split_ifs with hgap hoverlap
  · simp [Span.Contains]
  · simp only [List.mem_singleton, reduceCtorEq, false_and, exists_false, false_iff]
    omega
  · simp only [List.not_mem_nil, false_and, exists_false, false_iff]
    omega

/-- The overlap of a span holds its positions before the cursor. -/
theorem contains_overlap_issueAt_iff (name : String) (cursor : Nat) (span : Span) (p : Nat) :
    (∃ overlap : Span, .coverageOverlap name overlap ∈ issueAt name cursor span ∧
        overlap.Contains p) ↔ p < cursor ∧ span.Contains p := by
  unfold issueAt
  split_ifs with hgap hoverlap
  · simp only [List.mem_singleton, reduceCtorEq, false_and, exists_false, false_iff, Span.Contains]
    omega
  · simp only [List.mem_singleton, Issue.coverageOverlap.injEq, true_and, exists_eq_left,
      Span.Contains]
    omega
  · simp only [List.not_mem_nil, false_and, exists_false, false_iff, Span.Contains]
    omega

/-- A sweep reports gaps and overlaps, and each of them has a position. -/
theorem exists_of_mem_coverageFrom (hne : ∀ t ∈ spans, t.start < t.stop) {issue : Issue}
    (h : issue ∈ coverageFrom name length cursor spans) :
    ∃ span : Span, span.start < span.stop ∧
      (issue = .coverageGap name span ∨ issue = .coverageOverlap name span) := by
  induction spans generalizing cursor with
  | nil =>
    rw [coverageFrom] at h
    split at h
    · rename_i hlt
      exact ⟨_, hlt, Or.inl (List.mem_singleton.mp h)⟩
    · exact absurd h List.not_mem_nil
  | cons span rest ih =>
    obtain ⟨hspan, hrest⟩ := List.forall_mem_cons.mp hne
    rw [coverageFrom_cons] at h
    rcases List.mem_append.mp h with hhere | hlater
    · unfold issueAt at hhere
      split_ifs at hhere with hgap hoverlap
      · exact ⟨_, hgap, Or.inl (List.mem_singleton.mp hhere)⟩
      · exact ⟨_, lt_min hoverlap hspan, Or.inr (List.mem_singleton.mp hhere)⟩
      · exact absurd hhere List.not_mem_nil
    · exact ih hrest hlater

/-- From a cursor on, the gaps hold the positions that are neither in a span nor after all of them
and the text. -/
theorem contains_gap_iff (hsorted : spans.Pairwise fun a b => a.start ≤ b.start)
    (hne : ∀ t ∈ spans, t.start < t.stop) (p : Nat) :
    (∃ gap : Span, .coverageGap name gap ∈ coverageFrom name length cursor spans ∧ gap.Contains p) ↔
      cursor ≤ p ∧ (p < length ∨ ∃ t ∈ spans, p < t.stop) ∧ ∀ t ∈ spans, ¬ t.Contains p := by
  induction spans generalizing cursor with
  | nil =>
    rw [coverageFrom]
    split
    · simp [Span.Contains]
    · simp only [List.not_mem_nil, false_and, exists_false, or_false, false_implies, implies_true,
        and_true, false_iff]
      omega
  | cons span rest ih =>
    obtain ⟨hlater, hrest⟩ := List.pairwise_cons.mp hsorted
    obtain ⟨hspan, hne'⟩ := List.forall_mem_cons.mp hne
    have hsplit : (∃ gap : Span, .coverageGap name gap ∈
        coverageFrom name length cursor (span :: rest) ∧ gap.Contains p) ↔
        (cursor ≤ p ∧ p < span.start) ∨ (max cursor span.stop ≤ p ∧
          (p < length ∨ ∃ t ∈ rest, p < t.stop) ∧ ∀ t ∈ rest, ¬ t.Contains p) := by
      rw [coverageFrom_cons, ← ih hrest hne', ← contains_gap_issueAt_iff name]
      simp only [List.mem_append, or_and_right, exists_or]
    rw [hsplit, List.forall_mem_cons, List.exists_mem_cons_iff]
    simp only [Span.Contains] at hlater ⊢
    constructor
    · rintro (⟨hcursor, hbefore⟩ | ⟨hcursor, hend, hout⟩)
      · -- All later spans start after the position, since this one does.
        refine ⟨hcursor, Or.inr (Or.inl (by omega)), by omega, fun t ht => ?_⟩
        have := hlater t ht
        omega
      · exact ⟨by omega, hend.imp_right Or.inr, by omega, hout⟩
    · rintro ⟨hcursor, hend, hspan', hout⟩
      by_cases hbefore : p < span.start
      · exact Or.inl ⟨hcursor, hbefore⟩
      · refine Or.inr ⟨by omega, hend.imp_right ?_, hout⟩
        rintro (hstop | hstop)
        · omega
        · exact hstop

/-- From a cursor on, the overlaps hold the positions that are in two spans, and those before the
cursor that are in one. -/
theorem contains_overlap_iff (hsorted : spans.Pairwise fun a b => a.start ≤ b.start) (p : Nat) :
    (∃ overlap : Span, .coverageOverlap name overlap ∈ coverageFrom name length cursor spans ∧
        overlap.Contains p) ↔
      (p < cursor ∧ ∃ t ∈ spans, t.Contains p) ∨
        2 ≤ spans.countP fun t => decide (t.Contains p) := by
  induction spans generalizing cursor with
  | nil =>
    rw [coverageFrom]
    split <;> simp
  | cons span rest ih =>
    obtain ⟨hlater, hrest⟩ := List.pairwise_cons.mp hsorted
    have hsplit : (∃ overlap : Span, .coverageOverlap name overlap ∈
        coverageFrom name length cursor (span :: rest) ∧ overlap.Contains p) ↔
        (p < cursor ∧ span.Contains p) ∨
          ((p < max cursor span.stop ∧ ∃ t ∈ rest, t.Contains p) ∨
            2 ≤ rest.countP fun t => decide (t.Contains p)) := by
      rw [coverageFrom_cons, ← ih hrest, ← contains_overlap_issueAt_iff name]
      simp only [List.mem_append, or_and_right, exists_or]
    have hsome : (∃ t ∈ rest, t.Contains p) ↔
        0 < rest.countP fun t => decide (t.Contains p) := by
      simp [List.countP_pos_iff]
    -- A later span that holds the position starts no earlier than this one.
    have hboth : (∃ t ∈ rest, t.Contains p) → p < span.stop → span.Contains p := by
      rintro ⟨t, ht, htp⟩ hstop
      exact ⟨(hlater t ht).trans htp.1, hstop⟩
    rw [hsplit, List.exists_mem_cons_iff, List.countP_cons]
    by_cases hspan : span.Contains p
    · have hstop := hspan.2
      simp only [hspan, decide_true, ↓reduceIte, hsome, and_true, true_or]
      omega
    · have hstop : (∃ t ∈ rest, t.Contains p) → ¬ p < span.stop := fun h h' => hspan (hboth h h')
      rw [hsome] at hstop
      simp only [hspan, decide_false, Bool.false_eq_true, ↓reduceIte, hsome, and_false, false_or]
      omega

end Validation

/-! ### The spans of a file -/

namespace CodeGraph

/-- Where the last span of a file's components ends, of those that have a position. -/
def furthestStop (graph : CodeGraph) (id : FileId) : Nat :=
  (((graph.componentsInFile id).flatMap (·.spans)).filter (!·.isEmpty)).foldr
    (fun span furthest => max span.stop furthest) 0

end CodeGraph

namespace Validation

variable {graph : CodeGraph} {file : SourceFile}

theorem pairwise_spansOf (graph : CodeGraph) (file : SourceFile) :
    (spansOf graph file).Pairwise fun a b => a.start ≤ b.start :=
  Span.pairwise_sort _

theorem mem_spansOf {span : Span} :
    span ∈ spansOf graph file ↔
      span ∈ (graph.componentsInFile file.id).flatMap (·.spans) ∧ span.start < span.stop := by
  rw [spansOf, Span.mem_sort, List.mem_filter, Bool.not_eq_true', Span.isEmpty_eq_false_iff]

private theorem lt_foldr_max_iff (spans : List Span) (p : Nat) :
    p < spans.foldr (fun span furthest => max span.stop furthest) 0 ↔ ∃ t ∈ spans, p < t.stop := by
  induction spans with
  | nil => simp
  | cons span rest ih => rw [List.foldr_cons, lt_max_iff, ih, List.exists_mem_cons_iff]

/-- A position is before the furthest stop when a span that is swept over stops after it. -/
theorem lt_furthestStop_iff {p : Nat} :
    p < graph.furthestStop file.id ↔ ∃ t ∈ spansOf graph file, p < t.stop := by
  rw [CodeGraph.furthestStop, lt_foldr_max_iff]
  simp only [spansOf, Span.mem_sort]

/-- The spans that are swept over hold a position as often as all spans do. -/
theorem countP_spansOf (graph : CodeGraph) (file : SourceFile) (p : Nat) :
    (spansOf graph file).countP (fun t => decide (t.Contains p)) =
      graph.timesCovered file.id p := by
  rw [spansOf, (Span.sort_perm _).countP_eq, List.countP_filter, CodeGraph.timesCovered]
  refine List.countP_congr fun t _ => ?_
  have hne : t.Contains p → t.isEmpty = false := fun h =>
    Span.isEmpty_eq_false_iff.mpr (h.1.trans_lt h.2)
  simpa using hne

/-- A position is held by no span exactly when none of those that are swept over holds it. -/
theorem timesCovered_eq_zero_iff {p : Nat} :
    graph.timesCovered file.id p = 0 ↔ ∀ t ∈ spansOf graph file, ¬ t.Contains p := by
  rw [← countP_spansOf, List.countP_eq_zero]
  simp

/-- A position that a span holds is before the furthest stop. -/
theorem lt_furthestStop_of_timesCovered {p : Nat} (h : graph.timesCovered file.id p ≠ 0) :
    p < graph.furthestStop file.id := by
  rw [ne_eq, timesCovered_eq_zero_iff] at h
  push Not at h
  obtain ⟨t, ht, hcontains⟩ := h
  exact lt_furthestStop_iff.mpr ⟨t, ht, hcontains.2⟩

/-- The issues of a file stand together in those of the graph. -/
theorem coverageIssues_infix_validate (hfile : file ∈ graph.files) :
    coverageIssues graph file <:+: validate graph := by
  obtain ⟨before, after, hsplit⟩ := List.append_of_mem hfile
  rw [validate, hsplit, List.flatMap_append, List.flatMap_cons, ← List.append_assoc,
    ← List.append_assoc]
  exact List.infix_append _ _ _

/-- The positions in the gaps that are reported for a file. -/
theorem contains_gap_coverageIssues_iff (graph : CodeGraph) (file : SourceFile) (p : Nat) :
    (∃ gap : Span, .coverageGap file.relativePath gap ∈ coverageIssues graph file ∧
        gap.Contains p) ↔
      p < max file.formattedText.utf8ByteSize (graph.furthestStop file.id) ∧
        graph.timesCovered file.id p = 0 := by
  rw [coverageIssues,
    contains_gap_iff (pairwise_spansOf graph file) fun t ht => (mem_spansOf.mp ht).2,
    lt_max_iff, lt_furthestStop_iff, timesCovered_eq_zero_iff]
  simp

/-- The positions in the overlaps that are reported for a file. -/
theorem contains_overlap_coverageIssues_iff (graph : CodeGraph) (file : SourceFile) (p : Nat) :
    (∃ overlap : Span, .coverageOverlap file.relativePath overlap ∈ coverageIssues graph file ∧
        overlap.Contains p) ↔ 2 ≤ graph.timesCovered file.id p := by
  rw [coverageIssues, contains_overlap_iff (pairwise_spansOf graph file), countP_spansOf]
  simp

/-- What validation reports about the bytes of a file is exact. Its gaps together hold the positions
before the end of the text, or of the last span, that no span holds, and its overlaps together hold
those that are held at least twice. There is no issue exactly when each of these positions is held
once. -/
theorem coverageIssues_exact (hfile : file ∈ graph.files) :
    let reach := max file.formattedText.utf8ByteSize (graph.furthestStop file.id)
    coverageIssues graph file <:+: validate graph ∧
    (∀ issue ∈ coverageIssues graph file, ∃ span : Span, span.start < span.stop ∧
      (issue = .coverageGap file.relativePath span ∨
        issue = .coverageOverlap file.relativePath span)) ∧
    (∀ p, (∃ gap : Span, .coverageGap file.relativePath gap ∈ coverageIssues graph file ∧
      gap.Contains p) ↔ p < reach ∧ graph.timesCovered file.id p = 0) ∧
    (∀ p, (∃ overlap : Span, .coverageOverlap file.relativePath overlap ∈
      coverageIssues graph file ∧ overlap.Contains p) ↔ 2 ≤ graph.timesCovered file.id p) ∧
    (coverageIssues graph file = [] ↔ ∀ p < reach, graph.timesCovered file.id p = 1) ∧
    (coverageIssues graph file = [] →
      ∀ p < file.formattedText.utf8ByteSize, graph.timesCovered file.id p = 1) := by
  intro reach
  have hgaps := contains_gap_coverageIssues_iff graph file
  have hoverlaps := contains_overlap_coverageIssues_iff graph file
  have hissues : ∀ issue ∈ coverageIssues graph file, ∃ span : Span, span.start < span.stop ∧
      (issue = .coverageGap file.relativePath span ∨
        issue = .coverageOverlap file.relativePath span) :=
    fun issue => exists_of_mem_coverageFrom fun t ht => (mem_spansOf.mp ht).2
  have hnone : coverageIssues graph file = [] → ∀ p < reach, graph.timesCovered file.id p = 1 := by
    intro hnil p hp
    have hcovered := mt (hgaps p).mpr
    have honce := mt (hoverlaps p).mpr
    simp only [hnil, List.not_mem_nil, false_and, exists_false, not_false_eq_true,
      forall_const] at hcovered honce
    have := fun hzero => hcovered ⟨hp, hzero⟩
    omega
  refine ⟨coverageIssues_infix_validate hfile, hissues, hgaps, hoverlaps, ⟨hnone, fun hall => ?_⟩,
    fun hnil p hp => hnone hnil p (lt_max_of_lt_left hp)⟩
  -- An issue has a position, and that is held never or twice.
  refine List.eq_nil_iff_forall_not_mem.mpr fun issue hissue => ?_
  obtain ⟨span, hlt, rfl | rfl⟩ := hissues issue hissue
  · obtain ⟨hp, hzero⟩ := (hgaps span.start).mp ⟨span, hissue, Nat.le_refl _, hlt⟩
    exact absurd (hall _ hp) (by omega)
  · have htwice := (hoverlaps span.start).mp ⟨span, hissue, Nat.le_refl _, hlt⟩
    have hp : span.start < reach :=
      lt_max_of_lt_right (lt_furthestStop_of_timesCovered (by omega))
    exact absurd (hall _ hp) (by omega)

/-! ### Spans in disorder -/

/-- A component of the file `m` with the given spans. -/
def scatteredPart (id : ComponentId) (spans : List Span) : Component :=
  ⟨id, id, "", .function, "m", none, spans, [], [], []⟩

/-- A file of six bytes. -/
def scatteredFile : SourceFile :=
  ⟨"m", "m.mk", [], [], [], "abcdef"⟩

/-- The components of the file have inverted, empty, equal and nested spans, and one beyond the
text. -/
def scatteredGraph : CodeGraph where
  components :=
    [scatteredPart "first" [⟨4, 2⟩, ⟨1, 4⟩, ⟨3, 3⟩],
      scatteredPart "second" [⟨8, 9⟩, ⟨1, 4⟩, ⟨2, 3⟩]]
  files := [scatteredFile]
  externalSymbols := .empty

theorem coverageIssues_exact_scattered :
    (∃ gap : Span, .coverageGap "m.mk" gap ∈ validate scatteredGraph ∧ gap.Contains 7) ∧
    (∃ overlap : Span, .coverageOverlap "m.mk" overlap ∈ validate scatteredGraph ∧
      overlap.Contains 3) ∧
    ∀ gap : Span, .coverageGap "m.mk" gap ∈ coverageIssues scatteredGraph scatteredFile →
      ¬ gap.Contains 9 ∧ ¬ gap.Contains 3 := by
  have hfile : scatteredFile ∈ scatteredGraph.files := List.mem_singleton_self _
  obtain ⟨hpart, -, hgaps, hoverlaps, -⟩ := coverageIssues_exact hfile
  obtain ⟨gap, hgap, h7⟩ := (hgaps 7).mpr (by decide +kernel)
  obtain ⟨overlap, hoverlap, h3⟩ := (hoverlaps 3).mpr (by decide +kernel)
  refine ⟨⟨gap, hpart.subset hgap, h7⟩, ⟨overlap, hpart.subset hoverlap, h3⟩,
    fun gap' hgap' => ⟨fun h9 => ?_, fun h3' => ?_⟩⟩
  · exact absurd ((hgaps 9).mp ⟨gap', hgap', h9⟩) (by decide +kernel)
  · exact absurd ((hgaps 3).mp ⟨gap', hgap', h3'⟩) (by decide +kernel)

end Validation

end CodeAtlas
