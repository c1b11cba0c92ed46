import CodeAtlas.Proofs.Building
import CodeAtlas.Proofs.Extraction.DistinctNames
import CodeAtlas.Proofs.Extraction.Partition
import CodeAtlas.Validation
import Mathlib.Data.List.Pairwise

/-!
# When validation finds every byte covered

Validation goes through the spans of a file's components in order and reports what they leave out and
what they hold twice. Spans without common positions give no overlap, and spans that tile the text
give no issue. The components of a graph that belong to a file have such spans when they are
components of one extraction of the file, and all of these are there.

## Main definitions

* `ParsedFile.Partitioned`: the components of a parsed file divide its text among them.
* `CodeGraph.timesCovered`: how often a position of a file is held by its components.

## Main results

* `Extraction.partitioned_extract`: well-formed trees give partitioned files.
* `CodeGraph.Draws.gap_of_mem_coverageIssues`: components of one extraction do not overlap.
* `CodeGraph.Draws.coverageIssues_eq_nil`, `CodeGraph.Draws.timesCovered_eq_one`: all components of
  an extraction cover the file, and hold each position once.
-/

namespace CodeAtlas

/-! ### Going through sorted spans -/

namespace Validation

variable {file : String} {length cursor : Nat} {spans : List Span}

/-- Spans that tile what is left of the text give no issue. -/
theorem coverageFrom_of_tiles (h : Span.Tiles cursor length spans) :
    coverageFrom file length cursor spans = [] := by
  induction h with
  | nil offset => simp [coverageFrom]
  | @cons upper span rest hne _ ih =>
    have hcursor : max span.start span.stop = span.stop := by omega
    simp [coverageFrom, hcursor, ih]

/-- Spans one after the other do not overlap. -/
theorem gap_of_mem_coverageFrom (hpair : spans.Pairwise fun a b => a.stop ≤ b.start)
    (hcursor : ∀ t ∈ spans, cursor ≤ t.start) (hne : ∀ t ∈ spans, t.start < t.stop)
    {issue : Issue} (h : issue ∈ coverageFrom file length cursor spans) :
    ∃ gap, issue = .coverageGap file gap := by
  induction spans generalizing cursor with
  | nil =>
    rw [coverageFrom] at h
    split at h
    · exact ⟨_, List.mem_singleton.mp h⟩
    · exact absurd h List.not_mem_nil
  | cons span rest ih =>
    obtain ⟨hlater, hrest⟩ := List.pairwise_cons.mp hpair
    obtain ⟨hstart, -⟩ := List.forall_mem_cons.mp hcursor
    obtain ⟨hstop, hne'⟩ := List.forall_mem_cons.mp hne
    rw [coverageFrom] at h
    rcases List.mem_append.mp h with hhere | hthere
    · split at hhere
      · exact ⟨_, List.mem_singleton.mp hhere⟩
      · rw [if_neg (by omega)] at hhere
        exact absurd hhere List.not_mem_nil
    · refine ih hrest (fun t ht => ?_) hne' hthere
      have := hlater t ht
      omega

/-- Issues of coverage are found file by file. -/
theorem exists_of_mem_validate {graph : CodeGraph} {issue : Issue} (h : issue ∈ validate graph)
    (hcoverage : ∃ path span, issue = .coverageGap path span ∨ issue = .coverageOverlap path span) :
    ∃ record ∈ graph.files, issue ∈ coverageIssues graph record := by
  obtain ⟨path, span, hkind⟩ := hcoverage
  rcases List.mem_append.mp h with h | h
  · rcases List.mem_append.mp h with h | h
    · obtain ⟨id, -, hissue⟩ := List.mem_filterMap.mp h
      simp only at hissue
      split_ifs at hissue
      obtain rfl := Option.some.inj hissue
      simp at hkind
    · obtain ⟨c, -, hissue⟩ := List.mem_flatMap.mp h
      simp only [componentIssues, List.mem_append, Option.mem_toList, List.mem_filterMap] at hissue
      rcases hissue with (hissue | ⟨target, -, hissue⟩) | ⟨external, -, hissue⟩
      · simp only [fileIssue] at hissue
        split_ifs at hissue
        obtain rfl := Option.some.inj hissue
        simp at hkind
      · simp only [linkIssue] at hissue
        split at hissue
        · obtain rfl := Option.some.inj hissue
          simp at hkind
        · split_ifs at hissue
          obtain rfl := Option.some.inj hissue
          simp at hkind
      · simp only [externalIssue] at hissue
        split_ifs at hissue
        obtain rfl := Option.some.inj hissue
        simp at hkind
  · exact List.mem_flatMap.mp h

end Validation

/-! ### Partitioned files -/

/-- The components of the file have distinct names, and divide its text among them. -/
structure ParsedFile.Partitioned (file : ParsedFile) : Prop where
  distinct : (file.components.map (·.qualifiedName)).Nodup
  spans_inside : ∀ c ∈ file.components, ∀ span ∈ c.spans,
    span.start < span.stop ∧ span.stop ≤ file.text.utf8ByteSize
  apart : (file.components.flatMap (·.spans)).Pairwise Span.Apart
  covers : ∀ p < file.text.utf8ByteSize, ∃ c ∈ file.components, ∃ span ∈ c.spans, span.Contains p
  has_code : ∀ c ∈ file.components, ∃ code, file.componentText c = .ok code

private theorem takeBytes?_ne_nil {n : Nat} (hn : 0 < n) {cs piece : List Char}
    (h : Text.takeBytes? n cs = some piece) : piece ≠ [] := by
  obtain ⟨n, rfl⟩ := Nat.exists_eq_succ_of_ne_zero (Nat.pos_iff_ne_zero.mp hn)
  cases cs with
  | nil => simp [Text.takeBytes?] at h
  | cons c cs =>
    rw [Text.takeBytes?] at h
    split_ifs at h
    obtain ⟨rest, -, rfl⟩ := Option.map_eq_some_iff.mp h
    exact List.cons_ne_nil _ _

/-- Code that is cut out by a span with a position is not empty. -/
theorem ParsedFile.code_ne_empty {file : ParsedFile} {c : ParsedComponent} {code : String}
    (h : file.componentText c = .ok code) {span : Span} (hspan : span ∈ c.spans)
    (hne : span.start < span.stop) : code ≠ "" := by
  have hjoin : ∀ {spans : List Span} {found : List String}, span ∈ spans →
      pieces file.text spans = .ok found → String.join found ≠ "" := by
    intro spans
    induction spans with
    | nil => exact fun hmem => absurd hmem List.not_mem_nil
    | cons first rest ih =>
      intro found hmem hfound
      rw [pieces] at hfound
      split at hfound
      · simp at hfound
      · rename_i piece hpiece
        cases hrest : pieces file.text rest with
        | error e => simp [hrest, Except.map] at hfound
        | ok others =>
          obtain rfl : piece :: others = found := by simpa [hrest, Except.map] using hfound
          rw [String.join_cons, ne_eq, String.append_eq_empty_iff]
          rintro ⟨rfl, hothers⟩
          rcases List.mem_cons.mp hmem with rfl | hmem
          · obtain ⟨cs, hcs, hempty⟩ := Option.map_eq_some_iff.mp hpiece
            rw [Text.sliceChars?, if_pos (Nat.le_of_lt hne)] at hcs
            obtain ⟨tail, -, htake⟩ := Option.bind_eq_some_iff.mp hcs
            refine takeBytes?_ne_nil (Nat.sub_pos_of_lt hne) htake ?_
            simpa using congrArg String.toList hempty
          · exact ih hmem hrest hothers
  rw [componentText] at h
  split at h
  · rename_i found hfound
    obtain rfl := Except.ok.inj h
    exact hjoin hspan hfound
  · simp at h

/-- A well-formed tree gives a partitioned file. -/
theorem Extraction.partitioned_extract {language : Language} {relativePath source : String}
    {root : Node} (hroot : Node.WellFormed source root) :
    (extract language relativePath source root).Partitioned := by
  have h : Laid (Context.ofFile language relativePath source).source
      (walk (.ofFile language relativePath source) root).drafts := laid_walk _ hroot
  refine ⟨nodup_names_extract language relativePath source root, fun c hc span hspan => ?_,
    pairwise_apart_spans h, fun p hp => ?_, fun c hc => exists_componentText h hc⟩
  · obtain ⟨hlt, hle, -⟩ := (mem_assemble_spans h hc).1 span hspan
    exact ⟨hlt, hle⟩
  · obtain ⟨span, hspan, hcontains⟩ := exists_span_contains h hp
    obtain ⟨c, hc, hmem⟩ := List.mem_flatMap.mp hspan
    exact ⟨c, hc, span, hmem, hcontains⟩

/-! ### The components of one file in a graph -/

namespace CodeGraph

variable {fingerprint : Fingerprint} {graph : CodeGraph} {file : ParsedFile}

/-- The components of the graph that belong to the file are components of its extraction. -/
def Draws (fingerprint : Fingerprint) (graph : CodeGraph) (file : ParsedFile) : Prop :=
  ∀ c ∈ graph.components, c.fileId = file.ident fingerprint → c.unlink ∈ file.unlinked fingerprint

private theorem Draws.exists_parsed (h : graph.Draws fingerprint file) {c : Component}
    (hc : c ∈ graph.componentsInFile (file.ident fingerprint)) :
    ∃ parsed ∈ file.components, parsed.spans = c.spans ∧ parsed.qualifiedName = c.qualifiedName := by
  obtain ⟨hmem, hfile⟩ := List.mem_filter.mp hc
  obtain ⟨parsed, code, hparsed, -, heq⟩ :=
    (file.mem_unlinked fingerprint).mp (h c hmem (beq_iff_eq.mp hfile))
  exact ⟨parsed, (file.component?_mem hparsed).1, (congrArg Component.spans heq).symm,
    (congrArg Component.qualifiedName heq).symm⟩

/-- The components of a file have no positions in common. -/
theorem Draws.pairwise_apart (h : graph.Draws fingerprint file) (hfile : file.Partitioned)
    (hids : (graph.components.map (·.id)).Nodup) :
    ((graph.componentsInFile (file.ident fingerprint)).flatMap (·.spans)).Pairwise Span.Apart := by
  obtain ⟨hown, hothers⟩ := List.pairwise_flatMap.mp hfile.apart
  have hnodup : (graph.componentsInFile (file.ident fingerprint)).Pairwise
      fun c d => c.id ≠ d.id :=
    (List.pairwise_map.mp hids).sublist List.filter_sublist
  refine List.pairwise_flatMap.mpr ⟨fun c hc => ?_, hnodup.imp_of_mem fun {c d} hc hd hne => ?_⟩
  · obtain ⟨parsed, hmem, hspans, -⟩ := h.exists_parsed hc
    exact hspans ▸ hown parsed hmem
  · obtain ⟨parsed, hmem, hspans, hname⟩ := h.exists_parsed hc
    obtain ⟨parsed', hmem', hspans', hname'⟩ := h.exists_parsed hd
    rw [← hspans, ← hspans']
    have hsymm : Std.Symm fun a b : ParsedComponent =>
        ∀ s ∈ a.spans, ∀ t ∈ b.spans, Span.Apart s t :=
      ⟨fun a b hab t ht s hs => (hab s hs t ht).symm⟩
    refine hothers.forall hmem hmem' ?_
    rintro rfl
    obtain ⟨hcmem, hcfile⟩ := List.mem_filter.mp hc
    obtain ⟨hdmem, hdfile⟩ := List.mem_filter.mp hd
    have heq : c.unlink = d.unlink := file.eq_of_mem_unlinked fingerprint
      (h c hcmem (beq_iff_eq.mp hcfile)) (h d hdmem (beq_iff_eq.mp hdfile))
      (hname.symm.trans hname')
    have hsame : c.unlink.id = d.unlink.id := congrArg Component.id heq
    exact hne hsame

private theorem Draws.mem_spansOf (h : graph.Draws fingerprint file) (hfile : file.Partitioned)
    {record : SourceFile} (hid : record.id = file.ident fingerprint) {span : Span}
    (hspan : span ∈ Validation.spansOf graph record) :
    span.start < span.stop ∧ span.stop ≤ file.text.utf8ByteSize := by
  have hspan := (List.mem_filter.mp (Span.mem_sort.mp hspan)).1
  rw [hid] at hspan
  obtain ⟨c, hc, hspan⟩ := List.mem_flatMap.mp hspan
  obtain ⟨parsed, hmem, hspans, -⟩ := h.exists_parsed hc
  exact hfile.spans_inside parsed hmem span (hspans ▸ hspan)

private theorem Draws.pairwise_spansOf (h : graph.Draws fingerprint file)
    (hfile : file.Partitioned) (hids : (graph.components.map (·.id)).Nodup) {record : SourceFile}
    (hid : record.id = file.ident fingerprint) :
    (Validation.spansOf graph record).Pairwise fun a b => a.stop ≤ b.start := by
  refine Span.pairwise_sort_of_apart (fun span hspan => ?_) ?_
  · exact (h.mem_spansOf hfile hid (Span.mem_sort.mpr hspan)).1
  · rw [hid]
    exact (h.pairwise_apart hfile hids).sublist List.filter_sublist

/-- Components of one extraction give no overlap. -/
theorem Draws.gap_of_mem_coverageIssues (h : graph.Draws fingerprint file)
    (hfile : file.Partitioned) (hids : (graph.components.map (·.id)).Nodup) {record : SourceFile}
    (hid : record.id = file.ident fingerprint) {issue : Issue}
    (hissue : issue ∈ Validation.coverageIssues graph record) :
    ∃ gap, issue = .coverageGap record.relativePath gap :=
  Validation.gap_of_mem_coverageFrom (h.pairwise_spansOf hfile hids hid)
    (fun _ _ => Nat.zero_le _) (fun _ ht => (h.mem_spansOf hfile hid ht).1) hissue

/-- When all components of an extraction that have code are there, every position of the text lies in
a span of one of them. -/
theorem exists_span_contains (hfile : file.Partitioned)
    (hall : ∀ d ∈ file.unlinked fingerprint, d.codeText ≠ "" →
      ∃ c ∈ graph.components, c.unlink = d)
    {p : Nat} (hp : p < file.text.utf8ByteSize) :
    ∃ span ∈ (graph.componentsInFile (file.ident fingerprint)).flatMap (·.spans),
      span.Contains p := by
  obtain ⟨parsed, hmem, span, hspan, hcontains⟩ := hfile.covers p hp
  obtain ⟨code, hcode⟩ := hfile.has_code parsed hmem
  have hlt := (hfile.spans_inside parsed hmem span hspan).1
  have hunlinked : file.toComponent fingerprint parsed code ∈ file.unlinked fingerprint :=
    (file.mem_unlinked fingerprint).mpr
      ⟨parsed, code, file.component?_of_nodup hfile.distinct hmem, hcode, rfl⟩
  obtain ⟨c, hc, heq⟩ := hall _ hunlinked (ParsedFile.code_ne_empty hcode hspan hlt)
  have hspans : c.spans = parsed.spans := congrArg Component.spans heq
  have hcfile : c.fileId = file.ident fingerprint := congrArg Component.fileId heq
  exact ⟨span, List.mem_flatMap.mpr ⟨c, List.mem_filter.mpr ⟨hc, beq_iff_eq.mpr hcfile⟩,
    hspans ▸ hspan⟩, hcontains⟩

/-- All components of an extraction that have code cover the text. -/
theorem Draws.coverageIssues_eq_nil (h : graph.Draws fingerprint file) (hfile : file.Partitioned)
    (hids : (graph.components.map (·.id)).Nodup)
    (hall : ∀ d ∈ file.unlinked fingerprint, d.codeText ≠ "" →
      ∃ c ∈ graph.components, c.unlink = d)
    {record : SourceFile} (hid : record.id = file.ident fingerprint)
    (htext : record.formattedText = file.text) : Validation.coverageIssues graph record = [] := by
  refine Validation.coverageFrom_of_tiles (Span.tiles_of_cover (Nat.zero_le _)
    (h.pairwise_spansOf hfile hids hid) (fun span hspan => ?_) fun p _ hp => ?_)
  · rw [htext]
    exact ⟨Nat.zero_le _, h.mem_spansOf hfile hid hspan⟩
  · rw [htext] at hp
    obtain ⟨span, hspan, hcontains⟩ := exists_span_contains hfile hall hp
    refine ⟨span, Span.mem_sort.mpr (List.mem_filter.mpr ⟨hid ▸ hspan, ?_⟩), hcontains⟩
    simp only [Span.Contains] at hcontains
    simp only [Span.isEmpty, Span.length, Bool.not_eq_true', beq_eq_false_iff_ne]
    omega

/-- How many spans of the file's components hold the position. -/
def timesCovered (graph : CodeGraph) (id : FileId) (p : Nat) : Nat :=
  ((graph.componentsInFile id).flatMap (·.spans)).countP fun span => decide (span.Contains p)

/-- Components of one extraction hold a position once at most. -/
theorem Draws.timesCovered_le_one (h : graph.Draws fingerprint file) (hfile : file.Partitioned)
    (hids : (graph.components.map (·.id)).Nodup) (p : Nat) :
    graph.timesCovered (file.ident fingerprint) p ≤ 1 := by
  rw [timesCovered, Span.countP_contains_of_apart (h.pairwise_apart hfile hids)]
  split <;> omega

/-- All components of an extraction that have code hold a position of the text once. -/
theorem Draws.timesCovered_eq_one (h : graph.Draws fingerprint file) (hfile : file.Partitioned)
    (hids : (graph.components.map (·.id)).Nodup)
    (hall : ∀ d ∈ file.unlinked fingerprint, d.codeText ≠ "" →
      ∃ c ∈ graph.components, c.unlink = d)
    {p : Nat} (hp : p < file.text.utf8ByteSize) :
    graph.timesCovered (file.ident fingerprint) p = 1 := by
  rw [timesCovered, Span.countP_contains_of_apart (h.pairwise_apart hfile hids),
    if_pos (exists_span_contains hfile hall hp)]

end CodeGraph

end CodeAtlas
