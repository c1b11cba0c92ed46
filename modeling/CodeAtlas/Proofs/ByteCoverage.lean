import CodeAtlas.Proofs.Coverage
import CodeAtlas.Proofs.Portrait

/-!
# Every byte of a graph's files is covered

When the parser gives well-formed trees, no byte of a file belongs to two components of a graph, after
a build and after any updates. A byte belongs to none only where the file had a component whose name
and code another file had as well, in some pass both were part of: of such components one is kept.

## Main definitions

* `ParsedFile.SharesCode`: two files have components of one name and one code.
* `ParsedFile.Repeated`: a file was in one pass with another that shares code with it.
* `Passed`: the graphs of a build and of updates after it, with the files of each pass.

## Main results

* `Passed.portrays`: every graph of a run is a complete portrait of its files.
* `Passed.coverage`: what validation finds about coverage in any graph of a run, and how often each
  byte is held.
-/

namespace CodeAtlas

/-- Components of both files have one name and one code, which is not empty. -/
def ParsedFile.SharesCode (file other : ParsedFile) : Prop :=
  ∃ c ∈ file.components, ∃ d ∈ other.components, ∃ code : String, code ≠ "" ∧
    c.qualifiedName = d.qualifiedName ∧
    file.componentText c = .ok code ∧ other.componentText d = .ok code

/-- In some pass the file was together with another that shares code with it. A pass is given by its
files. -/
def ParsedFile.Repeated (passes : List (List ParsedFile)) (file : ParsedFile) : Prop :=
  ∃ pass ∈ passes, file ∈ pass ∧ ∃ other ∈ pass, other ≠ file ∧ file.SharesCode other

/-- A file shares code with another that has a component of the same name and code. -/
theorem ParsedFile.sharesCode_of_mem_unlinked {fingerprint : Fingerprint} {file other : ParsedFile}
    {d e : Component} (hd : d ∈ file.unlinked fingerprint) (he : e ∈ other.unlinked fingerprint)
    (hname : e.qualifiedName = d.qualifiedName) (hcode : e.codeText = d.codeText)
    (hne : d.codeText ≠ "") : file.SharesCode other := by
  obtain ⟨parsed, code, hparsed, htext, rfl⟩ := (file.mem_unlinked fingerprint).mp hd
  obtain ⟨parsed', code', hparsed', htext', rfl⟩ := (other.mem_unlinked fingerprint).mp he
  obtain rfl : code' = code := hcode
  exact ⟨parsed, (file.component?_mem hparsed).1, parsed', (other.component?_mem hparsed').1, code',
    hne, hname.symm, htext, htext'⟩

/-! ### Runs -/

/-- The graph is built and then updated some number of times by standard builders, with any changes.
The files are those of the graph, and those of the graphs before it, the latest first. -/
inductive Passed (parser : SyntaxParser) (fingerprint : Fingerprint) (contents : Contents) :
    List ParsedFile → List (List ParsedFile) → CodeGraph → Prop
  | built {builder : Builder} {fs : FileSystem} {directory : String} {paths : List String}
      (standard : builder.Standard parser fingerprint contents fs directory paths)
      (seed : LinkSeed) :
      Passed parser fingerprint contents (builder.extractFiles fs directory paths) []
        (builder.buildFiles fs directory paths seed).graph
  | updated {builder : Builder} {fs : FileSystem} {files : List ParsedFile}
      {earlier : List (List ParsedFile)} {graph : CodeGraph} {relinkRetained : Bool}
      {directory : String} {changes : ChangeSet} {supply : IdSupply} {result : UpdateResult}
      (before : Passed parser fingerprint contents files earlier graph)
      (standard : builder.Standard parser fingerprint contents fs directory
        (Update.rebuildPaths builder fs directory changes))
      (updated : update builder relinkRetained fs directory graph changes supply = .ok result) :
      Passed parser fingerprint contents (Update.nextFiles builder fs directory changes files)
        (files :: earlier) result.graph

namespace Passed

variable {parser : SyntaxParser} {fingerprint : Fingerprint} {contents : Contents}
  {files : List ParsedFile} {earlier : List (List ParsedFile)} {graph : CodeGraph}

theorem sourced (h : Passed parser fingerprint contents files earlier graph) :
    ∀ file ∈ files, file.Sourced parser contents := by
  induction h with
  | built standard seed => exact fun file hfile => standard.sourced hfile
  | updated _ standard _ ih => exact Update.sourced_nextFiles standard ih

/-- Every graph of a run is a complete portrait of its files. -/
theorem portrays (hfree : fingerprint.CollisionFree contents)
    (h : Passed parser fingerprint contents files earlier graph) :
    Portrays fingerprint contents files graph ∧ Complete fingerprint files earlier graph := by
  induction h with
  | built standard seed =>
    obtain rfl := standard.fingerprint_eq
    exact ⟨Builder.portrays_assemble standard.codes seed,
      Builder.complete_assemble hfree standard.codes seed⟩
  | @updated builder fs files earlier graph relinkRetained directory changes supply result before
      standard updated ih =>
    obtain ⟨hportrays, hcomplete⟩ := ih
    rcases Update.update_eq_ok updated with ⟨hnone, hsame, -⟩ | ⟨-, rfl⟩
    · rw [hsame, Update.nextFiles_of_not_hasChanges hnone]
      exact ⟨hportrays, fun file hfile d hd halone => hcomplete file hfile d hd fun pass hpass =>
        halone pass (List.mem_cons_of_mem _ hpass)⟩
    · exact ⟨Update.portrays_apply hfree standard before.sourced hportrays relinkRetained,
        Update.complete_apply hfree standard before.sourced hportrays hcomplete relinkRetained⟩

/-- The files of a run are partitioned, and the components of the graph that belong to a file come
from its extraction. -/
theorem partitioned_and_draws (hfree : fingerprint.CollisionFree contents)
    (hparser : ∀ language text root, parser language text = some root → Node.WellFormed text root)
    (h : Passed parser fingerprint contents files earlier graph) {file : ParsedFile}
    (hfile : file ∈ files) :
    file.Partitioned ∧ graph.Draws fingerprint file := by
  have hsourced := h.sourced
  refine ⟨?_, fun c hc hid => ?_⟩
  · obtain ⟨language, root, -, hroot, heq⟩ := (hsourced file hfile).origin
    rw [heq]
    exact Extraction.partitioned_extract (hparser language _ root hroot)
  · obtain ⟨other, hother, hunlinked⟩ := (h.portrays hfree).1.extracted c hc
    have hident := other.fileId_of_mem_unlinked fingerprint hunlinked
    rwa [(hsourced file hfile).eq_of_ident hfree (hsourced other hother) (hid.symm.trans hident)]

/-- An issue of coverage is a gap in one of the files. -/
theorem exists_gap_of_mem_validate (hfree : fingerprint.CollisionFree contents)
    (hparser : ∀ language text root, parser language text = some root → Node.WellFormed text root)
    (h : Passed parser fingerprint contents files earlier graph) {issue : Issue}
    (hissue : issue ∈ validate graph)
    (hkind : ∃ path span, issue = .coverageGap path span ∨ issue = .coverageOverlap path span) :
    ∃ file ∈ files, issue ∈ Validation.coverageIssues graph (file.record fingerprint) ∧
      ∃ gap, issue = .coverageGap file.relativePath gap := by
  obtain ⟨hportrays, -⟩ := h.portrays hfree
  obtain ⟨record, hrecord, hin⟩ := Validation.exists_of_mem_validate hissue hkind
  rw [hportrays.files_eq] at hrecord
  obtain ⟨file, hfile, rfl⟩ := List.mem_map.mp hrecord
  obtain ⟨hpartitioned, hdraws⟩ := h.partitioned_and_draws hfree hparser hfile
  exact ⟨file, hfile, hin,
    hdraws.gap_of_mem_coverageIssues hpartitioned hportrays.identified.nodup rfl hin⟩

/-- What a file has that was not repeated is all there. -/
theorem exists_of_mem_unlinked (hfree : fingerprint.CollisionFree contents)
    (h : Passed parser fingerprint contents files earlier graph) {file : ParsedFile}
    (hfile : file ∈ files)
    (hfresh : ¬ file.Repeated (files :: earlier)) {d : Component}
    (hd : d ∈ file.unlinked fingerprint) (hne : d.codeText ≠ "") :
    ∃ c ∈ graph.components, c.unlink = d := by
  obtain ⟨-, hcomplete⟩ := h.portrays hfree
  refine hcomplete file hfile d hd fun pass hpass hinpass other hother e he hname hcode => ?_
  by_contra hother'
  exact hfresh ⟨pass, hpass, hinpass, other, hother, hother',
    ParsedFile.sharesCode_of_mem_unlinked hd he hname hcode hne⟩

/-- In every graph of a run no byte belongs to two components, and a byte belongs to none only in a
file that shared code with another file of the same pass, now or before. -/
theorem coverage (hfree : fingerprint.CollisionFree contents)
    (hparser : ∀ language text root, parser language text = some root → Node.WellFormed text root)
    (h : Passed parser fingerprint contents files earlier graph) :
    (∀ path span, Issue.coverageOverlap path span ∉ validate graph) ∧
    (∀ path span, Issue.coverageGap path span ∈ validate graph →
      ∃ file ∈ files, file.relativePath = path ∧ file.Repeated (files :: earlier)) ∧
    ∀ record ∈ graph.files, ∃ file ∈ files, record = file.record fingerprint ∧
      (∀ p, graph.timesCovered record.id p ≤ 1) ∧
      (¬ file.Repeated (files :: earlier) →
        ∀ p < record.formattedText.utf8ByteSize, graph.timesCovered record.id p = 1) := by
  obtain ⟨hportrays, -⟩ := h.portrays hfree
  refine ⟨fun path span hmem => ?_, fun path span hmem => ?_, fun record hrecord => ?_⟩
  · obtain ⟨file, -, -, gap, heq⟩ :=
      h.exists_gap_of_mem_validate hfree hparser hmem ⟨path, span, Or.inr rfl⟩
    exact absurd heq (by simp)
  · obtain ⟨file, hfile, hin, gap, heq⟩ :=
      h.exists_gap_of_mem_validate hfree hparser hmem ⟨path, span, Or.inl rfl⟩
    refine ⟨file, hfile, (Issue.coverageGap.inj heq).1.symm, ?_⟩
    -- If the file was not repeated, all its components are there and cover it.
    by_contra hfresh
    obtain ⟨hpartitioned, hdraws⟩ := h.partitioned_and_draws hfree hparser hfile
    rw [hdraws.coverageIssues_eq_nil hpartitioned hportrays.identified.nodup
      (fun _ hd hne => h.exists_of_mem_unlinked hfree hfile hfresh hd hne) rfl rfl] at hin
    exact absurd hin List.not_mem_nil
  · rw [hportrays.files_eq] at hrecord
    obtain ⟨file, hfile, rfl⟩ := List.mem_map.mp hrecord
    obtain ⟨hpartitioned, hdraws⟩ := h.partitioned_and_draws hfree hparser hfile
    exact ⟨file, hfile, rfl, hdraws.timesCovered_le_one hpartitioned hportrays.identified.nodup,
      fun hfresh _ hp => hdraws.timesCovered_eq_one hpartitioned hportrays.identified.nodup
        (fun _ hd hne => h.exists_of_mem_unlinked hfree hfile hfresh hd hne) hp⟩

/-! ### Two equal files -/

/-- A function and the end of its line. -/
def twinText : String :=
  "def f():\n    pass\n"

/-- The tree of `twinText`. -/
def twinTree : Node :=
  .mk "module" ⟨0, 18⟩ true ""
    [.mk "function_definition" ⟨0, 17⟩ true ""
      [.mk "identifier" ⟨4, 5⟩ true "name" [], .mk "parameters" ⟨5, 7⟩ true "parameters" [],
        .mk "block" ⟨13, 17⟩ true "body" [.mk "pass_statement" ⟨13, 17⟩ true "" []]]]

/-- A parser that knows one text. -/
def twinParser : SyntaxParser := fun _ text =>
  if text = twinText then some twinTree else none

theorem wellFormed_twinParser (language : Language) (text : String) (root : Node)
    (h : twinParser language text = some root) : Node.WellFormed text root := by
  unfold twinParser at h
  split_ifs at h with htext
  obtain rfl := Option.some.inj h
  subst htext
  decide +kernel

/-- The issue of the last file is an issue of the graph. -/
private theorem mem_validate_of_getLast? {issue : Issue}
    (h : graph.files.getLast?.map (Validation.coverageIssues graph) = some [issue]) :
    issue ∈ validate graph := by
  obtain ⟨record, hrecord, hissues⟩ := Option.map_eq_some_iff.mp h
  refine List.mem_append_right _ (List.mem_flatMap.mpr ⟨record, List.mem_of_getLast? hrecord, ?_⟩)
  rw [hissues]
  exact List.mem_singleton_self issue

/-- A module and a package of one name, with the same text. -/
def twinTrees : FileSystem where
  entries :=
    [(["repo"], .directory), (["repo", "a.py"], .file (.text twinText)),
      (["repo", "a"], .directory), (["repo", "a", "__init__.py"], .file (.text twinText))]
  current := "/"

def twinBuilder : Builder where
  config := .standard
  registry := .standard twinParser
  fingerprint := .verbatim
  excluded := []

theorem standard_twinBuilder (paths : List String) :
    twinBuilder.Standard twinParser .verbatim .clear twinTrees "/repo" paths := by
  have hnames : twinTrees.ClearNames := by decide +kernel
  exact twinBuilder.standard_of_clearNames rfl hnames "/repo" paths

/-- The graph of the module alone. -/
def moduleGraph : CodeGraph :=
  (twinBuilder.buildFiles twinTrees "/repo" ["a.py"] ⟨[], ⟨.empty, ⟨0⟩⟩⟩).graph

/-- The package is added. -/
def packageAdded : ChangeSet :=
  ⟨[], ["a/__init__.py"], []⟩

/-- The graph of the module, to which the package was added. -/
def twinGraph : CodeGraph :=
  (Update.apply twinBuilder true twinTrees "/repo" moduleGraph packageAdded ⟨0⟩).graph

theorem passed_twinGraph :
    Passed twinParser .verbatim .clear
      (Update.nextFiles twinBuilder twinTrees "/repo" packageAdded
        (twinBuilder.extractFiles twinTrees "/repo" ["a.py"]))
      [twinBuilder.extractFiles twinTrees "/repo" ["a.py"]] twinGraph := by
  have hupdated : update twinBuilder true twinTrees "/repo" moduleGraph packageAdded ⟨0⟩ =
      .ok (Update.apply twinBuilder true twinTrees "/repo" moduleGraph packageAdded ⟨0⟩) :=
    Update.update_eq_apply _ _ _ _ (by decide +kernel) rfl
  exact .updated (.built (standard_twinBuilder ["a.py"]) ⟨[], ⟨.empty, ⟨0⟩⟩⟩)
    (standard_twinBuilder _) hupdated

theorem gap_mem_validate_twinGraph :
    Issue.coverageGap "a/__init__.py" ⟨0, 18⟩ ∈ validate twinGraph :=
  mem_validate_of_getLast? (by decide +kernel)

theorem coverage_twinGraph :
    Issue.coverageGap "a/__init__.py" ⟨0, 18⟩ ∈ validate twinGraph ∧
    Issue.coverageOverlap "a/__init__.py" ⟨0, 18⟩ ∉ validate twinGraph ∧
    (∃ file : ParsedFile, file.relativePath = "a/__init__.py" ∧
      file.Repeated [Update.nextFiles twinBuilder twinTrees "/repo" packageAdded
        (twinBuilder.extractFiles twinTrees "/repo" ["a.py"]),
        twinBuilder.extractFiles twinTrees "/repo" ["a.py"]]) ∧
    twinGraph.files ≠ [] ∧
    ∀ record ∈ twinGraph.files, ∀ p, twinGraph.timesCovered record.id p ≤ 1 := by
  have hgap := gap_mem_validate_twinGraph
  obtain ⟨hoverlap, hshared, hheld⟩ :=
    coverage Fingerprint.collisionFree_verbatim wellFormed_twinParser passed_twinGraph
  obtain ⟨file, -, hpath, hrepeated⟩ := hshared _ _ hgap
  refine ⟨hgap, hoverlap _ _, ⟨file, hpath, hrepeated⟩, by decide +kernel, fun record hrecord => ?_⟩
  obtain ⟨-, -, -, honce, -⟩ := hheld record hrecord
  exact honce

/-- A file that repeats another is not covered. -/
theorem gap_of_twin :
    ¬ ∀ (parser : SyntaxParser) (fingerprint : Fingerprint) (contents : Contents)
      (files : List ParsedFile) (earlier : List (List ParsedFile)) (graph : CodeGraph),
      fingerprint.CollisionFree contents →
      (∀ language text root, parser language text = some root → Node.WellFormed text root) →
      Passed parser fingerprint contents files earlier graph →
      ∀ path span, Issue.coverageGap path span ∉ validate graph := by
  intro hall
  exact hall _ _ _ _ _ _ Fingerprint.collisionFree_verbatim wellFormed_twinParser passed_twinGraph
    _ _ gap_mem_validate_twinGraph

end Passed

end CodeAtlas
