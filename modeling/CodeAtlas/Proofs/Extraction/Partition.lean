import CodeAtlas.Extraction
import CodeAtlas.Proofs.Extraction.Layout
import Mathlib.Data.List.Nodup

/-!
# Extraction partitions a file

Every byte of a file whose syntax tree is well formed belongs to exactly one component: the spans of
a component are the range of its definition without the ranges of the definitions directly inside,
so a component has a position exactly when its definition owns it. The code of every component can
be cut out of the text, and all pieces in the order of their starts give the text again.

## Main results

* `Extraction.contains_spans_iff_owns`: the positions of a component are those its definition owns.
* `Extraction.pairwise_apart_spans`, `Extraction.exists_span_contains`: no byte is held twice, and
  none is left out.
* `Extraction.extract_partitions`: the partition of a file, and its text put together again.
-/

namespace CodeAtlas.Extraction

open Node (IsBoundary WellFormed)

variable {ctx : Context} {found : Findings}

/-- The number of the definition, or of the remainder, together with the spans that it has. -/
def spansOf (length : Nat) (found : Findings) (owner : Option Nat) : List Span :=
  ((rangeOf? length found.drafts owner).map fun range =>
    range.subtract (rangesBelow found owner)).getD []

private theorem pairwise_rangesBelow (found : Findings) (owner : Option Nat) :
    (rangesBelow found owner).Pairwise fun a b => a.start ≤ b.start :=
  Span.pairwise_sort _

private theorem mem_rangesBelow {owner : Option Nat} {range : Span} :
    range ∈ rangesBelow found owner ↔ ∃ d ∈ found.drafts, d.parent = owner ∧ d.range = range := by
  simp [rangesBelow, and_assoc]

/-- A definition has exactly the positions it owns. -/
theorem contains_spans_iff_owns {length : Nat} {owner : Option Nat} {p : Nat} :
    (∃ t ∈ spansOf length found owner, t.Contains p) ↔ Owns length found.drafts owner p := by
  cases hrange : rangeOf? length found.drafts owner with
  | none => simp [spansOf, Owns, Covers, hrange]
  | some range =>
    simp only [spansOf, hrange, Option.map_some, Option.getD_some]
    rw [Span.contains_subtract_iff (pairwise_rangesBelow found owner)]
    simp only [Owns, Covers, hrange, Option.some.injEq, exists_eq_left']
    refine and_congr_right fun _ => ⟨fun h d hd hparent => ?_, fun h hole hhole => ?_⟩
    · exact h d.range (mem_rangesBelow.mpr ⟨d, hd, hparent, rfl⟩)
    · obtain ⟨d, hd, hparent, rfl⟩ := mem_rangesBelow.mp hhole
      exact h d hd hparent

/-- The spans of all components: those of the definitions, then those of the remainder. -/
theorem map_spans_assemble (ctx : Context) (found : Findings) :
    (assemble ctx found).components.map (·.spans) =
      (List.range found.drafts.length).map
        (fun i => spansOf ctx.source.utf8ByteSize found (some i))
        ++ [spansOf ctx.source.utf8ByteSize found none] := by
  rw [assemble, List.map_append, List.map_map]
  congr 1
  refine List.ext_getElem (by simp) fun i hi hi' => ?_
  have hlen : i < found.drafts.length := by simpa using hi
  simp [spansOf, rangeOf?, componentOfDraft, hlen]

/-- The owners of a file's components: the definitions in order, then the remainder. -/
def owners (found : Findings) : List (Option Nat) :=
  (List.range found.drafts.length).map some ++ [none]

theorem flatMap_spans_assemble (ctx : Context) (found : Findings) :
    (assemble ctx found).components.flatMap (·.spans) =
      (owners found).flatMap (spansOf ctx.source.utf8ByteSize found) := by
  rw [List.flatMap_def, map_spans_assemble, List.flatMap_def, owners, List.map_append, List.map_map]
  rfl

theorem nodup_owners (found : Findings) : (owners found).Nodup := by
  refine List.nodup_append.mpr ⟨?_, by simp, by simp⟩
  exact List.nodup_range.map fun _ _ h => Option.some.inj h

/-- Spans have a position, lie in the text, and end at boundaries. -/
theorem mem_spansOf {source : String} (h : Laid source found.drafts) {owner : Option Nat}
    {t : Span} (ht : t ∈ spansOf source.utf8ByteSize found owner) :
    t.start < t.stop ∧ t.stop ≤ source.utf8ByteSize ∧
      IsBoundary source t.start ∧ IsBoundary source t.stop := by
  cases hrange : rangeOf? source.utf8ByteSize found.drafts owner with
  | none => simp [spansOf, hrange] at ht
  | some range =>
    simp only [spansOf, hrange, Option.map_some, Option.getD_some] at ht
    have hbounds := Span.mem_subtract_bounds ht
    have hends : IsBoundary source range.start ∧ IsBoundary source range.stop := by
      cases owner with
      | none =>
        obtain rfl := Option.some.inj hrange
        exact ⟨.zero source, .utf8ByteSize source⟩
      | some i =>
        obtain ⟨d, hd, rfl⟩ := Option.map_eq_some_iff.mp hrange
        exact (h.ranges d (List.mem_of_getElem? hd)).2
    have hcut := Span.subtract_ends (P := IsBoundary source) hends.1 hends.2
      (fun hole hhole => by
        obtain ⟨d, hd, _, rfl⟩ := mem_rangesBelow.mp hhole
        exact (h.ranges d hd).2) ht
    exact ⟨hbounds.2.1, Nat.le_trans hbounds.2.2 hends.2.le_utf8ByteSize, hcut⟩

theorem pairwise_spansOf (length : Nat) (found : Findings) (owner : Option Nat) :
    (spansOf length found owner).Pairwise fun a b => a.stop < b.start := by
  cases hrange : rangeOf? length found.drafts owner with
  | none => simp [spansOf, hrange]
  | some range =>
    simp only [spansOf, hrange, Option.map_some, Option.getD_some]
    exact Span.pairwise_subtract range _

/-- No byte belongs to two components, or to one of them twice. -/
theorem pairwise_apart_spans (h : Laid ctx.source found.drafts) :
    ((assemble ctx found).components.flatMap (·.spans)).Pairwise Span.Apart := by
  rw [flatMap_spans_assemble, List.pairwise_flatMap]
  refine ⟨fun owner _ => ?_, (nodup_owners found).imp fun {a b} hne => ?_⟩
  · exact (pairwise_spansOf _ found owner).imp fun hlt => Span.apart_of_le (Nat.le_of_lt hlt)
  · intro s hs t ht p hsp htp
    have ha := contains_spans_iff_owns.mp ⟨s, hs, hsp⟩
    have hb := contains_spans_iff_owns.mp ⟨t, ht, htp⟩
    exact hne (h.owns_unique ha hb)

/-- Every byte belongs to a component. -/
theorem exists_span_contains (h : Laid ctx.source found.drafts) {p : Nat}
    (hp : p < ctx.source.utf8ByteSize) :
    ∃ t ∈ (assemble ctx found).components.flatMap (·.spans), t.Contains p := by
  obtain ⟨owner, howns⟩ := h.exists_owns hp
  obtain ⟨t, ht, htp⟩ := contains_spans_iff_owns.mpr howns
  rw [flatMap_spans_assemble]
  refine ⟨t, List.mem_flatMap.mpr ⟨owner, ?_, ht⟩, htp⟩
  cases owner with
  | none => simp [owners]
  | some i =>
    obtain ⟨d, hd, _⟩ := covers_some_iff.mp howns.1
    have := (List.getElem?_eq_some_iff.mp hd).1
    simp [owners, this]

/-- The spans of a component have positions, lie in the text, end at boundaries, and increase. -/
theorem mem_assemble_spans (h : Laid ctx.source found.drafts) {c : ParsedComponent}
    (hc : c ∈ (assemble ctx found).components) :
    (∀ t ∈ c.spans, t.start < t.stop ∧ t.stop ≤ ctx.source.utf8ByteSize ∧
      IsBoundary ctx.source t.start ∧ IsBoundary ctx.source t.stop) ∧
    c.spans.Pairwise fun a b => a.stop < b.start := by
  have hspans : c.spans ∈ (assemble ctx found).components.map (·.spans) :=
    List.mem_map_of_mem hc
  obtain ⟨owner, howner⟩ : ∃ owner, c.spans = spansOf ctx.source.utf8ByteSize found owner := by
    rw [map_spans_assemble] at hspans
    rcases List.mem_append.mp hspans with hmem | hmem
    · obtain ⟨i, _, hi⟩ := List.mem_map.mp hmem
      exact ⟨some i, hi.symm⟩
    · exact ⟨none, List.mem_singleton.mp hmem⟩
  rw [howner]
  exact ⟨fun t ht => mem_spansOf h ht, pairwise_spansOf _ found owner⟩

/-- The code of every component can be cut out of the text. -/
theorem exists_componentText (h : Laid ctx.source found.drafts) {c : ParsedComponent}
    (hc : c ∈ (assemble ctx found).components) :
    ∃ code, (assemble ctx found).componentText c = .ok code := by
  have hends : ∀ t ∈ c.spans, t.start ≤ t.stop ∧
      IsBoundary ctx.source t.start ∧ IsBoundary ctx.source t.stop := by
    intro t ht
    obtain ⟨hlt, _, hends⟩ := (mem_assemble_spans h hc).1 t ht
    exact ⟨Nat.le_of_lt hlt, hends⟩
  obtain ⟨pieces, hpieces⟩ := ParsedFile.exists_pieces_of_boundaries hends
  exact ⟨String.join pieces, by rw [ParsedFile.componentText, assemble, hpieces]⟩

/-- The spans of all components, sorted, tile the text. -/
theorem tiles_sort_spans (h : Laid ctx.source found.drafts) :
    Span.Tiles 0 ctx.source.utf8ByteSize
      (Span.sort ((assemble ctx found).components.flatMap (·.spans))) := by
  have hmem {t : Span} (ht : t ∈ (assemble ctx found).components.flatMap (·.spans)) :
      t.start < t.stop ∧ t.stop ≤ ctx.source.utf8ByteSize := by
    obtain ⟨c, hc, ht⟩ := List.mem_flatMap.mp ht
    obtain ⟨hlt, hle, _⟩ := (mem_assemble_spans h hc).1 t ht
    exact ⟨hlt, hle⟩
  refine Span.tiles_of_cover (Nat.zero_le _)
    (Span.pairwise_sort_of_apart (fun t ht => (hmem ht).1) (pairwise_apart_spans h))
    (fun t ht => ⟨Nat.zero_le _, hmem (Span.mem_sort.mp ht)⟩) fun p _ hp => ?_
  obtain ⟨t, ht, htp⟩ := exists_span_contains h hp
  exact ⟨t, Span.mem_sort.mpr ht, htp⟩

/-- For every well-formed tree the components of a file partition its text. Their spans have
positions, lie in the text and increase; each byte lies in exactly one span of exactly one component;
the code of every component can be cut out; and the pieces of all spans in the order of their starts
are the text. -/
theorem extract_partitions (language : Language) (relativePath source : String) (root : Node)
    (hroot : WellFormed source root) :
    let file := extract language relativePath source root
    file.text = source ∧
    (∀ c ∈ file.components,
      (∀ span ∈ c.spans, span.start < span.stop ∧ span.stop ≤ source.utf8ByteSize) ∧
      (c.spans.Pairwise fun a b => a.stop < b.start) ∧
      ∃ code, file.componentText c = .ok code) ∧
    (∀ p < source.utf8ByteSize,
      (file.components.flatMap (·.spans)).countP (fun span => decide (span.Contains p)) = 1) ∧
    ∃ pieces, ParsedFile.pieces file.text (Span.sort (file.components.flatMap (·.spans))) =
      .ok pieces ∧ String.join pieces = source := by
  have h : Laid (Context.ofFile language relativePath source).source
      (walk (.ofFile language relativePath source) root).drafts := laid_walk _ hroot
  refine ⟨rfl, fun c hc => ?_, fun p hp => ?_, ?_⟩
  · obtain ⟨hspans, hpair⟩ := mem_assemble_spans h hc
    exact ⟨fun t ht => ⟨(hspans t ht).1, (hspans t ht).2.1⟩, hpair, exists_componentText h hc⟩
  · rw [extract, Span.countP_contains_of_apart (pairwise_apart_spans h),
      if_pos (exists_span_contains h hp)]
  · refine ParsedFile.pieces_of_tiles (tiles_sort_spans h) fun t ht => ?_
    obtain ⟨c, hc, ht⟩ := List.mem_flatMap.mp (Span.mem_sort.mp ht)
    exact ((mem_assemble_spans h hc).1 t ht).2.2

/-- A class with a method that is defined twice. -/
def redefiningSource : String :=
  "class Ü:\n  def f(self): g()\n  def f(self): pass\n"

private def nameNode (start stop : Nat) : Node :=
  .mk "identifier" ⟨start, stop⟩ true "name" []

private def bodyNode (start stop : Nat) : Node :=
  .mk "block" ⟨start, stop⟩ true "body" []

/-- The tree of `redefiningSource`. -/
def redefiningTree : Node :=
  .mk "module" ⟨0, 49⟩ true ""
    [.mk "class_definition" ⟨0, 48⟩ true ""
      [nameNode 6 8,
        .mk "block" ⟨12, 48⟩ true "body"
          [.mk "function_definition" ⟨12, 28⟩ true "" [nameNode 16 17, bodyNode 25 28],
            .mk "function_definition" ⟨31, 48⟩ true "" [nameNode 35 36, bodyNode 44 48]]]]

theorem extract_partitions_redefinition :
    WellFormed redefiningSource redefiningTree ∧
    (∀ p < redefiningSource.utf8ByteSize,
      ((extract .python "pkg/m.py" redefiningSource redefiningTree).components.flatMap
        (·.spans)).countP (fun span => decide (span.Contains p)) = 1) :=
  ⟨by decide +kernel,
    (extract_partitions .python "pkg/m.py" redefiningSource redefiningTree
      (by decide +kernel)).2.2.1⟩

end CodeAtlas.Extraction
